import LayeredAnnotations.Proofs.Record.Repetition

namespace LayeredAnnotations

namespace Presence

theorem intersects_proper_iff (p : Presence) :
    p.intersects .proper ↔ ∃ origin : Origin, p.intersects origin.presence := by
  have hor : p.intersects .proper =
      (p.intersects Origin.declared.presence || p.intersects Origin.inherited.presence) := by
    simp [intersects_eq, proper, Origin.presence]
  rw [hor, Bool.or_eq_true]
  constructor
  · rintro (h | h)
    · exact ⟨_, h⟩
    · exact ⟨_, h⟩
  · rintro ⟨origin, h⟩
    cases origin with
    | declared => exact Or.inl h
    | inherited => exact Or.inr h

end Presence

namespace Finding

-- The members that a finding gives to an annotation itself.
def ownMembers? (name : String) : Finding → Option Members
  | .present _ o => if o.name = name then some o.members else none
  | .carried _ _ o => if o.name = name then some o.members else none
  | _ => none

theorem target?_of_ownMembers? {f : Finding} {name : String} {members : Members}
    (h : f.ownMembers? name = some members) : f.target? = some name := by
  cases f with
  | present origin o => exact congrArg some (Option.ite_none_right_eq_some.mp h).1
  | carried origin carrier o => exact congrArg some (Option.ite_none_right_eq_some.mp h).1
  | _ => exact nomatch h

end Finding

namespace Record

-- Whether an annotation is found on the element.
def IsPresent (findings : List Finding) (origin : Origin) (name : String) : Prop :=
  ∃ o, .present origin o ∈ findings ∧ o.name = name

-- Whether it is found there as one of several occurrences.
def IsRepeated (findings : List Finding) (origin : Origin) (name : String) : Prop :=
  ∃ container o, .repeated origin container o ∈ findings ∧ o.name = name

-- Whether occurrences of some annotation are grouped in it.
def IsContainer (findings : List Finding) (origin : Origin) (name : String) : Prop :=
  ∃ o, .repeated origin name o ∈ findings

section Recorded

variable (findings : List Finding) (name : String)

theorem intersects_origin_scan (origin : Origin) :
    ((scan findings).entryOf name).presence.intersects origin.presence ↔
      IsPresent findings origin name ∨ IsContainer findings origin name := by
  rw [intersects_scan]
  constructor
  · rintro ⟨f, hf, htarget, hpresence⟩
    cases f with
    | present origin' o =>
      obtain rfl : origin' = origin := by cases origin <;> cases origin' <;> trivial
      exact Or.inl ⟨o, hf, Option.some.inj htarget⟩
    | carried origin' carrier o => cases origin <;> cases origin' <;> exact nomatch hpresence
    | repeated origin' container o =>
      obtain rfl : origin' = origin := by cases origin <;> cases origin' <;> trivial
      obtain rfl := Option.some.inj htarget
      exact Or.inr ⟨o, hf⟩
    | defaults name' values => exact nomatch htarget
  · have hself : origin.presence.intersects origin.presence := by cases origin <;> rfl
    rintro (⟨o, hf, hname⟩ | ⟨o, hf⟩)
    · exact ⟨_, hf, congrArg some hname, hself⟩
    · exact ⟨_, hf, rfl, hself⟩

theorem isSome_lookup_containers_scan :
    ((scan findings).containers.lookup name).isSome ↔
      ∃ origin, IsRepeated findings origin name := by
  rw [lookup_containers_scan, List.findSome?_isSome_iff]
  constructor
  · rintro ⟨f, hf, hcontainer⟩
    obtain ⟨container, hcontainer⟩ := Option.isSome_iff_exists.mp hcontainer
    obtain ⟨origin, o, rfl, hname⟩ := Finding.containerOf?_eq_some_iff.mp hcontainer
    exact ⟨origin, container, o, List.mem_reverse.mp hf, hname⟩
  · rintro ⟨origin, container, o, hf, hname⟩
    exact ⟨_, List.mem_reverse.mpr hf, by simp [Finding.containerOf?, hname]⟩

-- The members that an annotation is given by all findings of it.
def membersFound : List Members := findings.filterMap (·.ownMembers? name)

theorem membersFound_concat (f : Finding) :
    membersFound (findings ++ [f]) name =
      membersFound findings name ++ (f.ownMembers? name).toList := by
  rw [membersFound, List.filterMap_append, membersFound]
  cases h : f.ownMembers? name with
  | none => rw [List.filterMap_cons_none h, List.filterMap_nil, Option.toList_none]
  | some members => rw [List.filterMap_cons_some h, List.filterMap_nil, Option.toList_some]

theorem members_step {r : Record} {f : Finding} (h : ∀ origin o, f ≠ .repeated origin name o) :
    ((r.step f).entryOf name).members =
      (f.ownMembers? name).toList.foldl Keyed.fill (r.entryOf name).members := by
  rw [entryOf_step]
  cases f with
  | present origin o =>
    simp only [Finding.target?, Option.some.injEq, Finding.ownMembers?]
    split <;> rfl
  | carried origin carrier o =>
    simp only [Finding.target?, Option.some.injEq, Finding.ownMembers?]
    split <;> rfl
  | repeated origin container o =>
    have hcontainer : container ≠ name := fun heq => h origin o (heq ▸ rfl)
    rw [if_neg (by simpa [Finding.target?] using hcontainer)]
    rfl
  | defaults name' values => rfl

-- Unless occurrences are grouped in it, an annotation has the members that it is given, and the
-- first to give one decides on it.
theorem members_scan (h : ∀ origin, ¬ IsContainer findings origin name) :
    ((scan findings).entryOf name).members = (membersFound findings name).foldl Keyed.fill [] := by
  induction findings using List.reverseRecOn with
  | nil => rfl
  | append_singleton findings f ih =>
    have hfindings : ∀ origin, ¬ IsContainer findings origin name := by
      rintro origin ⟨o, hmem⟩
      exact h origin ⟨o, List.mem_append_left _ hmem⟩
    have hlast : ∀ origin o, f ≠ .repeated origin name o := by
      rintro origin o rfl
      exact h origin ⟨o, List.mem_append_right _ (List.mem_singleton_self _)⟩
    rw [scan_concat, members_step name hlast, ih hfindings, membersFound_concat, List.foldl_append]

theorem find?_of_target {f : Finding} (hf : f ∈ findings) (htarget : f.target? = some name) :
    (ofFindings findings).answers.ask (.find? name) =
      some ⟨name, ((scan findings).entryOf name).members, latestDefaults findings name⟩ := by
  obtain ⟨entry, hentry⟩ := Option.isSome_iff_exists.mp
    ((isSome_lookup_entries_scan findings name).mpr ⟨f, hf, htarget⟩)
  change (scan findings).find? name = _
  rw [find?, hentry, findIn?, occurrence, defaultsOf_scan, entryOf, hentry, Option.getD_some]

-- What there is to know of an annotation is exactly what was found of it. It is there if it was
-- found, also as one of several occurrences or as the container of such, and declared if it was
-- found to be. The members that it was given all are there, each as it was given first.
theorem answers_exact :
    let answers := (ofFindings findings).answers
    (answers.ask (.has name) = true ↔ ∃ origin, IsPresent findings origin name ∨
      IsRepeated findings origin name ∨ IsContainer findings origin name) ∧
    ((∀ origin, ¬ IsRepeated findings origin name) →
      (answers.ask (.hasDeclared name) = true ↔
        IsPresent findings .declared name ∨ IsContainer findings .declared name)) ∧
    ((∀ origin, ¬ IsContainer findings origin name) → membersFound findings name ≠ [] →
      ∃ o, answers.ask (.find? name) = some o ∧ o.name = name ∧
        o.defaults = latestDefaults findings name ∧
        Keyed.keys o.members = ((membersFound findings name).flatMap Keyed.keys).eraseDups ∧
        ∀ member, o.members.lookup member =
          (membersFound findings name).findSome? (·.lookup member)) := by
  intro answers
  refine ⟨?_, ?_, ?_⟩
  · have hhas : answers.ask (.has name) = true ↔ _ := hasIn_proper_scan findings name
    rw [hhas, isSome_entryIn?, Presence.intersects_proper_iff, isSome_lookup_containers_scan,
      ← exists_or]
    simp only [intersects_origin_scan]
    exact exists_congr fun origin => or_right_comm.trans or_assoc
  · intro hrepeated
    have hhas : answers.ask (.hasDeclared name) = true ↔ _ := hasIn_iff (scan findings) name _
    have hcontainer : ¬ (scan findings).ContainerIn name .onlyDeclared := by
      rintro ⟨container, hlookup, -⟩
      obtain ⟨origin, h⟩ := (isSome_lookup_containers_scan findings name).mp
        (Option.isSome_of_eq_some hlookup)
      exact hrepeated origin h
    rw [hhas, or_iff_left hcontainer]
    exact intersects_origin_scan findings name .declared
  · intro hcontainer hfound
    obtain ⟨members, hmembers⟩ := List.exists_mem_of_ne_nil _ hfound
    obtain ⟨f, hf, hown⟩ := List.mem_filterMap.mp hmembers
    refine ⟨_, find?_of_target findings name hf (Finding.target?_of_ownMembers? hown), rfl, rfl,
      ?_, ?_⟩
    · have hnone : Keyed.Distinct ([] : Members) := List.nodup_nil
      rw [members_scan findings name hcontainer, Keyed.keys_foldl_fill hnone]
      rfl
    · intro member
      rw [members_scan findings name hcontainer, Keyed.lookup_foldl_fill]
      rfl

end Recorded

-- The annotation is found in three ways, one of them as an annotation of another one, with members
-- that are given twice, and its defaults are replaced.
theorem answers_exact_interleaved :
    let findings : List Finding :=
      [.carried .inherited "Service" ⟨"Scope", [("value", .string "s"), ("level", .int 1)], []⟩,
        .defaults "Scope" [("proxy", .bool true)],
        .repeated .declared "Tags" ⟨"Tag", [("value", .string "x")], []⟩,
        .present .declared ⟨"Scope", [("level", .int 2), ("order", .int 3)], []⟩,
        .defaults "Scope" [("proxy", .bool false)],
        .present .inherited ⟨"Scope", [("value", .string "t")], []⟩]
    let answers := (ofFindings findings).answers
    answers.ask (.has "Scope") = true ∧ answers.ask (.hasDeclared "Scope") = true ∧
      ∃ o, answers.ask (.find? "Scope") = some o ∧ o.name = "Scope" ∧
        o.defaults = [("proxy", .bool false)] ∧ Keyed.keys o.members = ["value", "level", "order"] ∧
        o.members.lookup "level" = some (.int 1) := by
  intro findings answers
  obtain ⟨hhas, hdeclared, hfind⟩ := answers_exact findings "Scope"
  have hrepeated : ∀ origin, ¬ IsRepeated findings origin "Scope" := by
    rintro origin ⟨container, o, hmem, hname⟩
    have htag : origin = .declared ∧ container = "Tags" ∧
        o = ⟨"Tag", [("value", .string "x")], []⟩ := by simpa [findings] using hmem
    obtain ⟨-, -, rfl⟩ := htag
    exact absurd hname (by decide)
  have hcontainer : ∀ origin, ¬ IsContainer findings origin "Scope" := by
    rintro origin ⟨o, hmem⟩
    simp [findings] at hmem
  have hpresent : IsPresent findings .declared "Scope" :=
    ⟨⟨"Scope", [("level", .int 2), ("order", .int 3)], []⟩, by simp [findings], rfl⟩
  obtain ⟨o, ho, hname, hdefaults, hkeys, hlookup⟩ := hfind hcontainer (List.cons_ne_nil _ _)
  refine ⟨hhas.mpr ⟨.declared, Or.inl hpresent⟩, (hdeclared hrepeated).mpr (Or.inl hpresent), o, ho,
    hname, hdefaults, ?_, hlookup "level"⟩
  rw [hkeys]
  rfl

end Record

end LayeredAnnotations
