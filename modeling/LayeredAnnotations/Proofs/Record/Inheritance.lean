import LayeredAnnotations.Proofs.Record.Carriers

namespace LayeredAnnotations

namespace Record

-- Whether inherited findings leave a member of an annotation alone: they only give it where a finding
-- before them that is not inherited did so, and do not change it then.
def IsSettled (findings : List Finding) (name member : String) : Prop :=
  ∀ before f after, findings = before ++ f :: after → f.isInherited → f.target? = some name →
    member ∈ f.given → f.keepsValues ∧
      ∃ g ∈ before, g.isInherited = false ∧ g.target? = some name ∧ member ∈ g.given

theorem IsSettled.of_concat {findings : List Finding} {f : Finding} {name member : String}
    (h : IsSettled (findings ++ [f]) name member) :
    IsSettled findings name member ∧ (f.isInherited → f.target? = some name → member ∈ f.given →
      f.keepsValues ∧ member ∈ ((scan findings).entryOf name).members.keys) := by
  refine ⟨?_, ?_⟩
  · intro before g after heq
    exact h before g (after ++ [f]) (by rw [heq, List.append_assoc, List.cons_append])
  · intro hinherited htarget hgiven
    obtain ⟨hkeeps, g, hg, -, hown⟩ := h findings f [] rfl hinherited htarget hgiven
    exact ⟨hkeeps, (mem_keys_scan findings name member).mpr ⟨g, hg, hown⟩⟩

theorem lookup_members_declaredPart {findings : List Finding} {name member : String}
    (h : IsSettled findings name member) :
    ((scan (declaredPart findings)).entryOf name).members.lookup member =
      ((scan findings).entryOf name).members.lookup member := by
  induction findings using List.reverseRecOn with
  | nil => rfl
  | append_singleton findings f ih =>
    obtain ⟨hfindings, hlast⟩ := h.of_concat
    rw [declaredPart_concat, scan_concat, entryOf_step]
    cases hinherited : f.isInherited with
    | true =>
      rw [if_pos rfl, ih hfindings]
      split
      · next htarget =>
        by_cases hgiven : member ∈ f.given
        · obtain ⟨hkeeps, hkeys⟩ := hlast hinherited htarget hgiven
          exact (Finding.lookup_extend_of_mem_keys hkeeps hkeys).symm
        · exact (Finding.lookup_extend_of_notMem_given _ hgiven).symm
      · rfl
    | false =>
      rw [if_neg Bool.false_ne_true, scan_concat, entryOf_step]
      split
      · exact f.lookup_extend_congr (ih hfindings)
      · exact ih hfindings

-- The order of the members is the same too if this is so for all of them.
theorem members_declaredPart {findings : List Finding} {name : String}
    (h : ∀ member, IsSettled findings name member) :
    ((scan (declaredPart findings)).entryOf name).members =
      ((scan findings).entryOf name).members := by
  induction findings using List.reverseRecOn with
  | nil => rfl
  | append_singleton findings f ih =>
    have hfindings := ih fun member => (h member).of_concat.1
    rw [declaredPart_concat, scan_concat, entryOf_step]
    cases hinherited : f.isInherited with
    | true =>
      rw [if_pos rfl, hfindings]
      split
      · next htarget =>
        have hlast := fun member => (h member).of_concat.2 hinherited htarget
        exact (Finding.extend_eq_self hlast).symm
      · rfl
    | false =>
      rw [if_neg Bool.false_ne_true, scan_concat, entryOf_step, hfindings]
      split
      · rfl
      · exact hfindings

-- Whether inherited findings leave the occurrences of an annotation alone that are grouped in the
-- container named last. If that is an inherited one, no others may be hidden by it.
def IsGroupSettled (findings : List Finding) (name : String) : Prop :=
  ∀ container, latestContainer? findings name = some container →
    (IsThroughDeclared findings container →
      IsSettled findings container Occurrence.soleMember) ∧
    (¬ IsThroughDeclared findings container → ¬ IsGroupedDeclared findings name)

theorem latestContainer?_concat (findings : List Finding) (f : Finding) (name : String) :
    latestContainer? (findings ++ [f]) name =
      (f.containerOf? name).or (latestContainer? findings name) := by
  rw [latestContainer?, List.reverse_concat, List.findSome?_cons, latestContainer?]
  cases f.containerOf? name <;> rfl

theorem latestContainer?_declaredPart_of_isSettled {findings : List Finding}
    {name container : String} (h : latestContainer? findings name = some container)
    (hsettled : IsSettled findings container Occurrence.soleMember) :
    latestContainer? (declaredPart findings) name = some container := by
  induction findings using List.reverseRecOn with
  | nil => exact h
  | append_singleton findings f ih =>
    obtain ⟨hfindings, hlast⟩ := hsettled.of_concat
    rw [latestContainer?_concat] at h
    rw [declaredPart_concat]
    cases hinherited : f.isInherited with
    | true =>
      rw [if_pos rfl]
      cases hcontainer : f.containerOf? name with
      | none =>
        rw [hcontainer, Option.none_or] at h
        exact ih h hfindings
      | some container' =>
        rw [hcontainer, Option.some_or, Option.some.injEq] at h
        subst h
        obtain ⟨origin, o, rfl, -⟩ := Finding.containerOf?_eq_some_iff.mp hcontainer
        have hkeeps := (hlast hinherited rfl (List.mem_singleton_self _)).1
        exact nomatch hkeeps
    | false =>
      rw [if_neg Bool.false_ne_true, latestContainer?_concat]
      cases hcontainer : f.containerOf? name with
      | none =>
        rw [hcontainer, Option.none_or] at h
        exact ih h hfindings
      | some container' => rwa [hcontainer, Option.some_or] at h

theorem entryIn?_of_isThroughDeclared {findings : List Finding} {name : String}
    (h : IsThroughDeclared findings name) :
    (scan findings).entryIn? name .throughDeclared = some ((scan findings).entryOf name) := by
  rw [entryIn?_eq, if_pos ((intersects_throughDeclared_scan findings name).mpr h)]

theorem entryIn?_of_not_isThroughDeclared {findings : List Finding} {name : String}
    (h : ¬ IsThroughDeclared findings name) :
    (scan findings).entryIn? name .throughDeclared = none := by
  rw [entryIn?_eq, if_neg (mt (intersects_throughDeclared_scan findings name).mp h)]

theorem grouped?_scan (findings : List Finding) (name : String) (mask : Presence) :
    (scan findings).grouped? name mask = (latestContainer? findings name).bind fun container =>
      ((scan findings).entryIn? container mask).map fun entry =>
        let elements := ((entry.members.lookup Occurrence.soleMember).map Value.elements).getD []
        (elements.filterMap Value.scalarNested?).map
          (·.withDefaults ((scan findings).defaultsOf name)) := by
  rw [grouped?, lookup_containers_scan, ← latestContainer?]
  cases latestContainer? findings name with
  | none => rfl
  | some container =>
    simp only [Option.bind_eq_bind, Option.bind_some]
    cases (scan findings).entryIn? container mask <;> rfl

theorem grouped?_declaredPart {findings : List Finding} {name : String}
    (h : IsGroupSettled findings name) :
    (scan (declaredPart findings)).grouped? name .throughDeclared =
      (scan findings).grouped? name .throughDeclared := by
  rw [grouped?_scan, grouped?_scan, defaultsOf_declaredPart]
  cases hwhole : latestContainer? findings name with
  | none =>
    have hpart : latestContainer? (declaredPart findings) name = none := by
      rw [latestContainer?, List.findSome?_eq_none_iff] at hwhole ⊢
      intro f hf
      exact hwhole f (List.mem_reverse.mpr (mem_declaredPart.mp (List.mem_reverse.mp hf)).1)
    rw [hpart]
    rfl
  | some container =>
    obtain ⟨hsettled, hhidden⟩ := h container hwhole
    rw [Option.bind_some]
    by_cases hthrough : IsThroughDeclared findings container
    · have hpart := (isThroughDeclared_declaredPart findings container).mpr hthrough
      rw [latestContainer?_declaredPart_of_isSettled hwhole (hsettled hthrough), Option.bind_some,
        entryIn?_of_isThroughDeclared hthrough, entryIn?_of_isThroughDeclared hpart, Option.map_some,
        Option.map_some, lookup_members_declaredPart (hsettled hthrough)]
    · have hpart : latestContainer? (declaredPart findings) name = none := by
        rw [← Option.not_isSome_iff_eq_none, isSome_latestContainer?_declaredPart]
        exact hhidden hthrough
      rw [hpart, entryIn?_of_not_isThroughDeclared hthrough]
      rfl

-- What an annotation has of its own.
theorem occurrence_declaredPart {findings : List Finding} {name : String}
    (h : IsThroughDeclared findings name → ∀ member, IsSettled findings name member) :
    ((scan (declaredPart findings)).entryIn? name .throughDeclared).map
        ((scan (declaredPart findings)).occurrence name) =
      ((scan findings).entryIn? name .throughDeclared).map ((scan findings).occurrence name) := by
  have hpart := isThroughDeclared_declaredPart findings name
  by_cases hthrough : IsThroughDeclared findings name
  · rw [entryIn?_of_isThroughDeclared hthrough, entryIn?_of_isThroughDeclared (hpart.mpr hthrough),
      Option.map_some, Option.map_some, occurrence, occurrence, members_declaredPart (h hthrough),
      defaultsOf_declaredPart]
  · rw [entryIn?_of_not_isThroughDeclared hthrough,
      entryIn?_of_not_isThroughDeclared (mt hpart.mp hthrough), Option.map_none, Option.map_none]

theorem findDeclared?_eq (r : Record) (name : String) :
    r.findDeclared? name = ((r.entryIn? name .throughDeclared).map (r.occurrence name)).or
      ((r.grouped? name .throughDeclared).bind List.head?) := by
  rw [findDeclared?]
  cases r.entryIn? name .throughDeclared <;> rfl

theorem findDeclared?_of_isThroughDeclared {findings : List Finding} {name : String}
    (h : IsThroughDeclared findings name) :
    (scan findings).findDeclared? name =
      some ((scan findings).occurrence name ((scan findings).entryOf name)) := by
  rw [findDeclared?_eq, entryIn?_of_isThroughDeclared h, Option.map_some, Option.some_or]

private theorem or_eq_or_iff (known p q : Bool) : (known || p) = (known || q) ↔ known ∨ p = q := by
  cases known <;> simp

theorem carriersOr_eq_iff (known : Keyed (List String)) (name : String) (p q : Bool) :
    carriersOr known name p = carriersOr known name q ↔ (known.lookup name).isSome ∨ p = q := by
  rw [carriersOr, carriersOr]
  cases known.lookup name with
  | none => cases p <;> cases q <;> simp
  | some names => simp

-- An inherited value that was found first stands even for what is declared.
theorem not_forall_declared_answers_eq :
    ¬ ∀ (findings : List Finding) (name : String),
      let whole := (ofFindings findings).answers
      let part := (ofFindings (declaredPart findings)).answers
      whole.ask (.hasDeclared name) = part.ask (.hasDeclared name) ∧
      whole.ask (.knowsDeclared name) = part.ask (.knowsDeclared name) ∧
      (∀ other, other ∈ whole.ask .declaredNames ↔ other ∈ part.ask .declaredNames) ∧
      whole.ask (.declaredCarriers name) = part.ask (.declaredCarriers name) ∧
      whole.ask (.findDeclared? name) = part.ask (.findDeclared? name) ∧
      whole.ask (.declaredOccurrences name) = part.ask (.declaredOccurrences name) := by
  intro h
  obtain ⟨-, -, -, -, hfind, -⟩ := h
    [.present .inherited ⟨"Foo", [("a", .int 9)], []⟩,
      .present .declared ⟨"Foo", [("a", .int 1)], []⟩] "Foo"
  have hvalue := congrArg (fun o? => o?.bind fun o => o.members.lookup "a") hfind
  exact absurd (Value.int.inj (Option.some.inj hvalue)) (by decide)

-- Which annotations are declared does not depend on what is inherited. The other answers do where
-- the last container of an annotation is an inherited one, where a member was given by an inherited
-- finding first, and where inherited occurrences are in the same container as declared ones.
theorem declared_answers_declaredPart (findings : List Finding) (name : String) :
    let whole := (ofFindings findings).answers
    let part := (ofFindings (declaredPart findings)).answers
    (∀ other, other ∈ whole.ask .declaredNames ↔ other ∈ part.ask .declaredNames) ∧
    (whole.ask (.hasDeclared name) = part.ask (.hasDeclared name) ↔
      IsDeclared findings name ∨
        ((∃ container, latestContainer? findings name = some container ∧
          IsDeclared findings container) ↔ IsGroupedDeclared findings name)) ∧
    (whole.ask (.knowsDeclared name) = part.ask (.knowsDeclared name) ↔
      IsThroughDeclared findings name ∨
        whole.ask (.hasDeclared name) = part.ask (.hasDeclared name)) ∧
    (whole.ask (.declaredCarriers name) = part.ask (.declaredCarriers name) ↔
      IsCarriedDeclared findings name ∨
        whole.ask (.hasDeclared name) = part.ask (.hasDeclared name)) ∧
    (IsThroughDeclared findings name → ∃ o o' : Occurrence,
      whole.ask (.findDeclared? name) = some o ∧ part.ask (.findDeclared? name) = some o' ∧
      o.defaults = o'.defaults ∧
      (∀ member, IsSettled findings name member →
        o.members.lookup member = o'.members.lookup member) ∧
      ((∀ member, IsSettled findings name member) → o = o')) ∧
    (IsGroupSettled findings name →
      (IsThroughDeclared findings name → ∀ member, IsSettled findings name member) →
      whole.ask (.findDeclared? name) = part.ask (.findDeclared? name) ∧
      whole.ask (.declaredOccurrences name) = part.ask (.declaredOccurrences name)) := by
  intro whole part
  have hpart := isThroughDeclared_declaredPart findings name
  refine ⟨?_, hasIn_onlyDeclared_eq_iff findings name, ?_, ?_, ?_, ?_⟩
  · intro other
    exact (mem_declaredNames_declaredPart findings other).symm
  · have hentry : ((scan (declaredPart findings)).entryIn? name .throughDeclared).isSome =
        ((scan findings).entryIn? name .throughDeclared).isSome := by
      rw [Bool.eq_iff_iff, isSome_entryIn?_throughDeclared, isSome_entryIn?_throughDeclared, hpart]
    rw [← isSome_entryIn?_throughDeclared]
    change (((scan findings).entryIn? name .throughDeclared).isSome ||
        whole.ask (.hasDeclared name)) =
      (((scan (declaredPart findings)).entryIn? name .throughDeclared).isSome ||
        part.ask (.hasDeclared name)) ↔ _
    rw [hentry]
    exact or_eq_or_iff _ _ _
  · rw [← isSome_lookup_declaredCarriers_scan]
    change carriersOr (scan findings).declaredCarriers name (whole.ask (.hasDeclared name)) =
      carriersOr (scan (declaredPart findings)).declaredCarriers name
        (part.ask (.hasDeclared name)) ↔ _
    rw [declaredCarriers_declaredPart]
    exact carriersOr_eq_iff _ _ _ _
  · intro hthrough
    refine ⟨_, _, findDeclared?_of_isThroughDeclared hthrough,
      findDeclared?_of_isThroughDeclared (hpart.mpr hthrough), ?_, ?_, ?_⟩
    · exact (defaultsOf_declaredPart findings name).symm
    · intro member hsettled
      exact (lookup_members_declaredPart hsettled).symm
    · intro hsettled
      rw [occurrence, occurrence, members_declaredPart hsettled, defaultsOf_declaredPart]
  · intro hgroup hsettled
    have hgrouped := grouped?_declaredPart hgroup
    have hown := occurrence_declaredPart hsettled
    refine ⟨?_, ?_⟩
    · change (scan findings).findDeclared? name = (scan (declaredPart findings)).findDeclared? name
      rw [findDeclared?_eq, findDeclared?_eq, hgrouped, hown]
    · change (scan findings).occurrencesIn name .throughDeclared =
        (scan (declaredPart findings)).occurrencesIn name .throughDeclared
      rw [occurrencesIn, occurrencesIn, hgrouped, hown]

theorem findDeclared?_of_declared_first :
    let findings : List Finding :=
      [.present .declared ⟨"Foo", [("a", .int 1)], []⟩,
        .present .inherited ⟨"Foo", [("a", .int 9)], []⟩]
    IsThroughDeclared findings "Foo" ∧ (∀ member, IsSettled findings "Foo" member) ∧
      (ofFindings findings).answers.ask (.findDeclared? "Foo") =
        (ofFindings (declaredPart findings)).answers.ask (.findDeclared? "Foo") := by
  intro findings
  have hthrough : IsThroughDeclared findings "Foo" := ⟨_, List.mem_cons_self, rfl, rfl⟩
  have hsettled : ∀ member, IsSettled findings "Foo" member := by
    intro member before f after heq hinherited _ hgiven
    rcases before with _ | ⟨g, _ | ⟨g', before⟩⟩
    · obtain ⟨rfl, -⟩ := List.cons.inj heq
      exact nomatch hinherited
    · obtain ⟨rfl, htail⟩ := List.cons.inj heq
      obtain ⟨rfl, -⟩ := List.cons.inj htail
      exact ⟨rfl, _, List.mem_cons_self, rfl, rfl, hgiven⟩
    · exact absurd (congrArg List.length heq) (by simp [findings])
  obtain ⟨-, -, -, -, hfind, -⟩ := declared_answers_declaredPart findings "Foo"
  obtain ⟨o, o', ho, ho', -, -, heq⟩ := hfind hthrough
  refine ⟨hthrough, hsettled, ?_⟩
  rw [ho, ho', heq hsettled]

end Record

end LayeredAnnotations
