import LayeredAnnotations.Proofs.Record.Naming
import Mathlib.Data.List.Basic

namespace LayeredAnnotations

namespace Finding

-- One of several occurrences of an annotation.
def repetitionOf? (name : String) : Finding → Option Occurrence
  | .repeated _ _ o => if o.name = name then some o else none
  | _ => none

def defaultsFor? (name : String) : Finding → Option Members
  | .defaults name' values => if name = name' then some values else none
  | _ => none

theorem isSome_containerOf? {f : Finding} {name : String} {o : Occurrence}
    (h : f.repetitionOf? name = some o) : (f.containerOf? name).isSome := by
  cases f with
  | repeated origin container o' =>
    obtain ⟨hname, -⟩ := Option.ite_none_right_eq_some.mp h
    rw [containerOf?, if_pos hname.symm, Option.isSome_some]
  | _ => simp [repetitionOf?] at h

-- Where the container of an annotation is known, its occurrences are looked for there.
theorem repetitionOf?_eq_filter {f : Finding} {name container : String}
    (h : ∀ container', f.containerOf? name = some container' → container' = container) :
    f.repetitionOf? name = (f.groupedIn? container).filter (·.name = name) := by
  cases f with
  | repeated origin container' o =>
    rw [repetitionOf?, groupedIn?]
    by_cases hname : o.name = name
    · have hcontainer : container' = container := h container' (if_pos hname.symm)
      rw [if_pos hname, if_pos hcontainer, Option.filter_some, if_pos (decide_eq_true hname)]
    · have hrefused : decide (o.name = name) = false := decide_eq_false hname
      rw [if_neg hname]
      split
      · rw [Option.filter_some, hrefused]
        rfl
      · rfl
  | _ => rfl

end Finding

namespace Record

-- The defaults of an annotation are those that were registered last.
def latestDefaults (findings : List Finding) (name : String) : Members :=
  (findings.reverse.findSome? (·.defaultsFor? name)).getD []

-- The occurrences of an annotation that were found one by one, in the order in which they were
-- found.
def repetitions (findings : List Finding) (name : String) : List Occurrence :=
  (findings.filterMap (·.repetitionOf? name)).map (·.withDefaults (latestDefaults findings name))

-- Whether an occurrence is grouped in a container before the container is given a value of its own.
def GroupsFirst (findings : List Finding) (container : String) : Prop :=
  ∃ before f after, findings = before ++ f :: after ∧ (f.groupedIn? container).isSome ∧
    ∀ g ∈ before, g.groupedIn? container = none ∧ g.ownValue? container = none

section Repetitions

variable {findings : List Finding} {name container : String}

theorem defaultsOf_scan (findings : List Finding) (name : String) :
    (scan findings).defaultsOf name = latestDefaults findings name := by
  have hstep (r : Record) (f : Finding) :
      (r.step f).defaults.lookup name = (f.defaultsFor? name).or (r.defaults.lookup name) := by
    cases f with
    | defaults name' values =>
      rw [step, Keyed.put, Keyed.lookup_update, Finding.defaultsFor?]
      split <;> rfl
    | _ => rfl
  rw [defaultsOf, lookup_scan_eq_latest defaults rfl hstep, latestDefaults]

theorem ownValueOf?_of_groupsFirst (h : GroupsFirst findings container) :
    ownValueOf? findings container = none := by
  obtain ⟨before, f, after, rfl, hf, hbefore⟩ := h
  obtain ⟨o, ho⟩ := Option.isSome_iff_exists.mp hf
  have htake : ((before ++ f :: after).takeWhile fun g => (g.groupedIn? container).isNone) =
      before := by
    have hnone : ∀ g ∈ before, (g.groupedIn? container).isNone := by
      intro g hg
      rw [(hbefore g hg).1, Option.isNone_none]
    rw [List.takeWhile_append_of_pos hnone, List.takeWhile_cons_of_neg (by simp [ho]),
      List.append_nil]
  rw [ownValueOf?, htake, List.findSome?_eq_none_iff]
  exact fun g hg => (hbefore g hg).2

variable (hcontainer : ∀ container' ∈ findings.filterMap (·.containerOf? name),
  container' = container)

include hcontainer

theorem filterMap_repetitionOf? :
    findings.filterMap (·.repetitionOf? name) =
      (findings.filterMap (·.groupedIn? container)).filter (·.name = name) := by
  rw [List.filter_filterMap]
  apply List.filterMap_congr
  intro f hf
  apply Finding.repetitionOf?_eq_filter
  intro container' h
  exact hcontainer container' (List.mem_filterMap.mpr ⟨f, hf, h⟩)

theorem latestContainer?_of_repeated (h : findings.filterMap (·.repetitionOf? name) ≠ []) :
    latestContainer? findings name = some container := by
  obtain ⟨o, ho⟩ := List.exists_mem_of_ne_nil _ h
  obtain ⟨f, hf, hrepetition⟩ := List.mem_filterMap.mp ho
  have hsome : (latestContainer? findings name).isSome := by
    rw [latestContainer?, List.findSome?_isSome_iff]
    exact ⟨f, List.mem_reverse.mpr hf, Finding.isSome_containerOf? hrepetition⟩
  obtain ⟨container', hlatest⟩ := Option.isSome_iff_exists.mp hsome
  obtain ⟨g, hg, hnamed⟩ := List.exists_of_findSome?_eq_some hlatest
  have heq : container' = container :=
    hcontainer container' (List.mem_filterMap.mpr ⟨g, List.mem_reverse.mp hg, hnamed⟩)
  rw [hlatest, heq]

-- All that such an annotation has occurs in its container.
theorem occurrences_of_repeated (h : findings.filterMap (·.repetitionOf? name) ≠ []) :
    (ofFindings findings).answers.ask (.occurrences name) =
      (contentsOf findings container).map (·.withDefaults (latestDefaults findings name)) := by
  have hlatest := latestContainer?_of_repeated hcontainer h
  have hthere := intersects_anywhere_of_latestContainer? findings name hlatest
  change (scan findings).occurrencesIn name .anywhere = _
  rw [occurrencesIn, grouped?_eq_contentsOf, hlatest, Option.bind_some, if_pos hthere,
    defaultsOf_scan]

-- No occurrence of an annotation that was found in one container is lost, whatever else is found
-- in between: they all are there in their order, with their members and the defaults of the
-- annotation. Nothing else is there unless it was put into the same container.
theorem repetitions_sublist_occurrences :
    let all := (ofFindings findings).answers.ask (.occurrences name)
    (repetitions findings name).Sublist all ∧
      (GroupsFirst findings container →
        (∀ o ∈ findings.filterMap (·.groupedIn? container), o.name = name) →
        all = repetitions findings name) := by
  intro all
  have hrepetitions := filterMap_repetitionOf? hcontainer
  constructor
  · by_cases hnone : findings.filterMap (·.repetitionOf? name) = []
    · rw [repetitions, hnone]
      exact List.nil_sublist all
    · have hsublist : (findings.filterMap (·.repetitionOf? name)).Sublist
          (contentsOf findings container) := by
        rw [hrepetitions, contentsOf]
        exact List.filter_sublist.trans (List.sublist_append_right _ _)
      have hall : all = _ := occurrences_of_repeated hcontainer hnone
      rw [hall]
      exact hsublist.map _
  · intro hfirst hnames
    have hself : findings.filterMap (·.repetitionOf? name) =
        findings.filterMap (·.groupedIn? container) := by
      rw [hrepetitions, List.filter_eq_self]
      exact fun o ho => decide_eq_true (hnames o ho)
    have hsome : findings.filterMap (·.repetitionOf? name) ≠ [] := by
      obtain ⟨before, f, after, heq, hf, -⟩ := hfirst
      obtain ⟨o, ho⟩ := Option.isSome_iff_exists.mp hf
      have hmem : f ∈ findings := heq ▸ List.mem_append_right before List.mem_cons_self
      rw [hself]
      exact List.ne_nil_of_mem (List.mem_filterMap.mpr ⟨f, hmem, ho⟩)
    have hcontents : contentsOf findings container =
        findings.filterMap (·.repetitionOf? name) := by
      rw [contentsOf, ownValueOf?_of_groupsFirst hfirst, hself]
      rfl
    have hall : all = _ := occurrences_of_repeated hcontainer hsome
    rw [hall, hcontents, repetitions]

end Repetitions

-- The container is given a value between its two occurrences, and the defaults come last.
theorem occurrences_of_interrupted_repetition :
    let findings : List Finding :=
      [.carried .declared "Tags" ⟨"Scope", [("value", .string "s")], []⟩,
        .repeated .declared "Tags" ⟨"Tag", [("value", .string "x")], []⟩,
        .present .inherited ⟨"Tags", [("value", .string "legacy")], []⟩,
        .repeated .inherited "Tags" ⟨"Tag", [("value", .string "y")], []⟩,
        .defaults "Tag" [("level", .int 1)]]
    (∀ container' ∈ findings.filterMap (·.containerOf? "Tag"), container' = "Tags") ∧
      GroupsFirst findings "Tags" ∧
      (∀ o ∈ findings.filterMap (·.groupedIn? "Tags"), o.name = "Tag") ∧
      (ofFindings findings).answers.ask (.occurrences "Tag") =
        [⟨"Tag", [("value", .string "x")], [("level", .int 1)]⟩,
          ⟨"Tag", [("value", .string "y")], [("level", .int 1)]⟩] := by
  intro findings
  have hcontainer : ∀ container' ∈ findings.filterMap (·.containerOf? "Tag"),
      container' = "Tags" := by decide
  have hfirst : GroupsFirst findings "Tags" := by
    refine ⟨findings.take 1, _, findings.drop 2, rfl, rfl, ?_⟩
    exact List.forall_mem_singleton.mpr ⟨rfl, rfl⟩
  have hnames : ∀ o ∈ findings.filterMap (·.groupedIn? "Tags"), o.name = "Tag" := by decide
  obtain ⟨-, hall⟩ := repetitions_sublist_occurrences hcontainer
  exact ⟨hcontainer, hfirst, hnames, hall hfirst hnames⟩

-- What is found to be carried by another annotation gives its members too: the container is there
-- with a value already, which no finding of the container itself has put there.
theorem not_forall_occurrences_eq_repetitions :
    ¬ ∀ (findings : List Finding) (name container : String),
      (∀ container' ∈ findings.filterMap (·.containerOf? name), container' = container) →
      let all := (ofFindings findings).answers.ask (.occurrences name)
      (repetitions findings name).Sublist all ∧
        ((∃ before f after, findings = before ++ f :: after ∧ (f.groupedIn? container).isSome ∧
            (∀ g ∈ before, g.groupedIn? container = none) ∧
            ∀ origin o, .present origin o ∈ before → o.name = container →
              o.members.lookup Occurrence.soleMember = none) →
          (∀ o ∈ findings.filterMap (·.groupedIn? container), o.name = name) →
          all = repetitions findings name) := by
  intro h
  let tags : Occurrence := ⟨"Tags", [("value", .nested ⟨"Tag", [("value", .string "x")], []⟩)], []⟩
  let findings : List Finding :=
    [.carried .declared "Scope" tags,
      .repeated .declared "Tags" ⟨"Tag", [("value", .string "y")], []⟩]
  obtain ⟨-, hall⟩ := h findings "Tag" "Tags" (by decide)
  have heq := hall
    ⟨findings.take 1, _, [], rfl, rfl, List.forall_mem_singleton.mpr rfl, by simp [findings]⟩
    (by decide)
  have hlength := congrArg List.length heq
  exact absurd hlength (by decide)

end Record

end LayeredAnnotations
