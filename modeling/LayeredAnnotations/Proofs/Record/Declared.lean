import LayeredAnnotations.Proofs.Record.Scan

namespace LayeredAnnotations

theorem Keyed.fill_of_keys_subset {α : Type} {m other : Keyed α}
    (h : ∀ key ∈ other.keys, key ∈ m.keys) : m.fill other = m := by
  induction other using List.reverseRecOn with
  | nil => rfl
  | append_singleton other entry ih =>
    obtain ⟨key, a⟩ := entry
    rw [Keyed.keys_concat, List.forall_mem_append, List.forall_mem_singleton] at h
    rw [Keyed.fill_concat, ih h.1, Keyed.putAbsent, if_pos ((Keyed.has_iff_mem_keys m key).mpr h.2)]

namespace Finding

-- What comes with the element's ancestors and not with the element itself.
def isInherited : Finding → Bool
  | .present origin _ => origin == .inherited
  | .carried origin _ _ => origin == .inherited
  | .repeated origin _ _ => origin == .inherited
  | .defaults _ _ => false

-- Whether members that are there already keep their values.
def keepsValues : Finding → Bool
  | .repeated _ _ _ => false
  | _ => true

theorem containerOf?_eq_some_iff {f : Finding} {name container : String} :
    f.containerOf? name = some container ↔
      ∃ origin o, f = .repeated origin container o ∧ o.name = name := by
  cases f with
  | repeated origin container' o =>
    rw [containerOf?]
    constructor
    · intro h
      obtain ⟨hname, heq⟩ := Option.ite_none_right_eq_some.mp h
      exact ⟨origin, o, by rw [Option.some.inj heq], hname.symm⟩
    · rintro ⟨origin', o', heq, rfl⟩
      injection heq with _ hcontainer ho
      rw [hcontainer, ho, if_pos rfl]
  | _ => simp [containerOf?]

theorem intersects_onlyDeclared (f : Finding) :
    f.presence.intersects .onlyDeclared = f.presence.declared := by
  simp [Presence.intersects_eq, Presence.onlyDeclared]

-- An annotation is present through a declared one by what is not inherited.
theorem intersects_throughDeclared {f : Finding} {name : String} (h : f.target? = some name) :
    f.presence.intersects .throughDeclared = !f.isInherited := by
  rw [Presence.intersects_eq]
  cases f with
  | present origin o => cases origin <;> rfl
  | carried origin carrier o => cases origin <;> rfl
  | repeated origin container o => cases origin <;> rfl
  | defaults name' values => exact nomatch h

theorem isInherited_of_declared {f : Finding} (h : f.presence.declared) : f.isInherited = false := by
  cases f with
  | defaults name values => exact nomatch h
  | present origin o => cases origin <;> first | rfl | exact nomatch h
  | carried origin carrier o => cases origin <;> exact nomatch h
  | repeated origin container o => cases origin <;> first | rfl | exact nomatch h

-- A member only depends on what it was before.
theorem lookup_extend_congr (f : Finding) {m m' : Members} {member : String}
    (h : m.lookup member = m'.lookup member) :
    (f.extend m).lookup member = (f.extend m').lookup member := by
  cases f with
  | present origin o => rw [extend, extend, Keyed.lookup_fill, Keyed.lookup_fill, h]
  | carried origin carrier o => rw [extend, extend, Keyed.lookup_fill, Keyed.lookup_fill, h]
  | repeated origin container o =>
    rw [extend, extend, Keyed.lookup_update, Keyed.lookup_update]
    split
    · next hsole => rw [← hsole, h]
    · exact h
  | defaults name values => exact h

theorem lookup_extend_of_notMem_given {f : Finding} (m : Members) {member : String}
    (h : member ∉ f.given) : (f.extend m).lookup member = m.lookup member := by
  have hfill : ∀ other : Members, member ∉ other.keys →
      (m.fill other).lookup member = m.lookup member := by
    intro other hother
    rw [← Keyed.has_iff_mem_keys, Keyed.has, Bool.not_eq_true, Option.isSome_eq_false_iff,
      Option.isNone_iff_eq_none] at hother
    rw [Keyed.lookup_fill, hother, Option.or_none]
  cases f with
  | present origin o => exact hfill o.members h
  | carried origin carrier o => exact hfill o.members h
  | repeated origin container o =>
    rw [extend, Keyed.lookup_update, if_neg (by simpa [given] using h)]
  | defaults name values => rfl

theorem lookup_extend_of_mem_keys {f : Finding} (hkeeps : f.keepsValues) {m : Members}
    {member : String} (h : member ∈ m.keys) : (f.extend m).lookup member = m.lookup member := by
  obtain ⟨v, hv⟩ := Option.isSome_iff_exists.mp ((Keyed.has_iff_mem_keys m member).mpr h)
  cases f with
  | present origin o => rw [extend, Keyed.lookup_fill, hv, Option.some_or]
  | carried origin carrier o => rw [extend, Keyed.lookup_fill, hv, Option.some_or]
  | repeated origin container o => exact absurd hkeeps Bool.false_ne_true
  | defaults name values => rfl

theorem extend_eq_self {f : Finding} {m : Members}
    (h : ∀ member ∈ f.given, f.keepsValues ∧ member ∈ m.keys) : f.extend m = m := by
  cases f with
  | present origin o => exact Keyed.fill_of_keys_subset fun member hmem => (h member hmem).2
  | carried origin carrier o => exact Keyed.fill_of_keys_subset fun member hmem => (h member hmem).2
  | repeated origin container o => exact nomatch (h _ (List.mem_singleton_self _)).1
  | defaults name values => rfl

end Finding

namespace Record

-- What is found on the element itself.
def declaredPart (findings : List Finding) : List Finding := findings.filter (!·.isInherited)

theorem mem_declaredPart {findings : List Finding} {f : Finding} :
    f ∈ declaredPart findings ↔ f ∈ findings ∧ f.isInherited = false := by
  rw [declaredPart, List.mem_filter, Bool.not_eq_true']

theorem declaredPart_concat (findings : List Finding) (f : Finding) :
    declaredPart (findings ++ [f]) =
      if f.isInherited then declaredPart findings else declaredPart findings ++ [f] := by
  cases h : f.isInherited <;> simp [declaredPart, h]

-- What inherited findings leave alone, and others only change depending on what it was, is the same
-- without the inherited ones.
theorem scan_declaredPart {β : Type} (part : Record → β)
    (hkeep : ∀ r f, f.isInherited → part (r.step f) = part r)
    (hcongr : ∀ r r' f, part r = part r' → part (r.step f) = part (r'.step f))
    (findings : List Finding) : part (scan (declaredPart findings)) = part (scan findings) := by
  induction findings using List.reverseRecOn with
  | nil => rfl
  | append_singleton findings f ih =>
    rw [declaredPart_concat, scan_concat]
    cases h : f.isInherited with
    | true =>
      rw [if_pos rfl, hkeep _ f h]
      exact ih
    | false =>
      rw [if_neg Bool.false_ne_true, scan_concat]
      exact hcongr _ _ f ih

theorem declaredCarriers_declaredPart (findings : List Finding) :
    (scan (declaredPart findings)).declaredCarriers = (scan findings).declaredCarriers := by
  refine scan_declaredPart (·.declaredCarriers) ?_ ?_ findings
  · intro r f h
    cases f with
    | carried origin carrier o =>
      cases origin with
      | declared => exact nomatch h
      | inherited => rfl
    | _ => rfl
  · intro r r' f h
    cases f with
    | carried origin carrier o =>
      cases origin with
      | declared => exact congrArg (noteUnder o.name carrier) h
      | inherited => exact h
    | _ => exact h

theorem defaultsOf_declaredPart (findings : List Finding) (name : String) :
    (scan (declaredPart findings)).defaultsOf name = (scan findings).defaultsOf name := by
  have hdefaults : (scan (declaredPart findings)).defaults = (scan findings).defaults := by
    refine scan_declaredPart (·.defaults) ?_ ?_ findings
    · intro r f h
      cases f with
      | defaults name values => exact nomatch h
      | _ => rfl
    · intro r r' f h
      cases f with
      | defaults name values => exact congrArg (·.put name values) h
      | _ => exact h
  rw [defaultsOf, defaultsOf, hdefaults]

-- Whether an annotation is declared on the element.
def IsDeclared (findings : List Finding) (name : String) : Prop :=
  ∃ f ∈ findings, f.target? = some name ∧ f.presence.declared

-- Whether it is declared there, or an annotation of something declared.
def IsThroughDeclared (findings : List Finding) (name : String) : Prop :=
  ∃ f ∈ findings, f.target? = some name ∧ f.isInherited = false

-- Whether one of several occurrences of it is declared there.
def IsGroupedDeclared (findings : List Finding) (name : String) : Prop :=
  ∃ container o, .repeated .declared container o ∈ findings ∧ o.name = name

-- Whether it is known as an annotation of a declared annotation.
def IsCarriedDeclared (findings : List Finding) (name : String) : Prop :=
  ∃ carrier o, .carried .declared carrier o ∈ findings ∧ o.name = name

-- The container that groups the occurrences of an annotation is the one named last.
def latestContainer? (findings : List Finding) (name : String) : Option String :=
  findings.reverse.findSome? (·.containerOf? name)

section Declared

variable (findings : List Finding) (name : String)

theorem intersects_onlyDeclared_scan :
    ((scan findings).entryOf name).presence.intersects .onlyDeclared ↔
      IsDeclared findings name := by
  simp only [intersects_scan, Finding.intersects_onlyDeclared, IsDeclared]

theorem intersects_throughDeclared_scan :
    ((scan findings).entryOf name).presence.intersects .throughDeclared ↔
      IsThroughDeclared findings name := by
  rw [intersects_scan, IsThroughDeclared]
  refine exists_congr fun f => and_congr_right fun _ => and_congr_right fun htarget => ?_
  rw [Finding.intersects_throughDeclared htarget, Bool.not_eq_true']

theorem isSome_entryIn?_throughDeclared :
    ((scan findings).entryIn? name .throughDeclared).isSome ↔ IsThroughDeclared findings name := by
  rw [isSome_entryIn?, intersects_throughDeclared_scan]

theorem isThroughDeclared_iff :
    IsThroughDeclared findings name ↔
      IsDeclared findings name ∨ IsCarriedDeclared findings name := by
  constructor
  · rintro ⟨f, hf, htarget, hinherited⟩
    cases f with
    | present origin o =>
      cases origin with
      | declared => exact Or.inl ⟨_, hf, htarget, rfl⟩
      | inherited => exact nomatch hinherited
    | carried origin carrier o =>
      cases origin with
      | declared => exact Or.inr ⟨carrier, o, hf, Option.some.inj htarget⟩
      | inherited => exact nomatch hinherited
    | repeated origin container o =>
      cases origin with
      | declared => exact Or.inl ⟨_, hf, htarget, rfl⟩
      | inherited => exact nomatch hinherited
    | defaults name' values => exact nomatch htarget
  · rintro (⟨f, hf, htarget, hdeclared⟩ | ⟨carrier, o, hf, hname⟩)
    · exact ⟨f, hf, htarget, Finding.isInherited_of_declared hdeclared⟩
    · exact ⟨_, hf, congrArg some hname, rfl⟩

theorem isDeclared_declaredPart :
    IsDeclared (declaredPart findings) name ↔ IsDeclared findings name := by
  constructor
  · rintro ⟨f, hf, h⟩
    exact ⟨f, (mem_declaredPart.mp hf).1, h⟩
  · rintro ⟨f, hf, htarget, h⟩
    exact ⟨f, mem_declaredPart.mpr ⟨hf, Finding.isInherited_of_declared h⟩, htarget, h⟩

theorem isThroughDeclared_declaredPart :
    IsThroughDeclared (declaredPart findings) name ↔ IsThroughDeclared findings name := by
  constructor
  · rintro ⟨f, hf, h⟩
    exact ⟨f, (mem_declaredPart.mp hf).1, h⟩
  · rintro ⟨f, hf, htarget, h⟩
    exact ⟨f, mem_declaredPart.mpr ⟨hf, h⟩, htarget, h⟩

theorem mem_declaredNames_declaredPart :
    name ∈ (scan (declaredPart findings)).namesIn .onlyDeclared ↔
      name ∈ (scan findings).namesIn .onlyDeclared := by
  rw [mem_namesIn (distinct_entries_scan _), mem_namesIn (distinct_entries_scan _),
    intersects_onlyDeclared_scan, intersects_onlyDeclared_scan, isDeclared_declaredPart]

-- Among what is declared, the last container named for an annotation is declared by that.
theorem latestContainer?_declaredPart {container : String}
    (h : latestContainer? (declaredPart findings) name = some container) :
    IsGroupedDeclared findings name ∧ IsDeclared findings container := by
  obtain ⟨f, hf, hcontainer⟩ := List.exists_of_findSome?_eq_some h
  obtain ⟨hfindings, hinherited⟩ := mem_declaredPart.mp (List.mem_reverse.mp hf)
  obtain ⟨origin, o, rfl, hname⟩ := Finding.containerOf?_eq_some_iff.mp hcontainer
  cases origin with
  | declared => exact ⟨⟨container, o, hfindings, hname⟩, ⟨_, hfindings, rfl, rfl⟩⟩
  | inherited => exact nomatch hinherited

theorem isSome_latestContainer?_declaredPart :
    (latestContainer? (declaredPart findings) name).isSome ↔ IsGroupedDeclared findings name := by
  constructor
  · intro h
    obtain ⟨container, hcontainer⟩ := Option.isSome_iff_exists.mp h
    exact (latestContainer?_declaredPart findings name hcontainer).1
  · rintro ⟨container, o, hmem, rfl⟩
    have hf := List.mem_reverse.mpr (mem_declaredPart.mpr ⟨hmem, rfl⟩)
    rw [latestContainer?, List.findSome?_isSome_iff]
    exact ⟨_, hf, by simp [Finding.containerOf?]⟩

-- An annotation counts as declared by itself or by the container that was named last.
theorem hasIn_onlyDeclared_scan :
    (scan findings).hasIn name .onlyDeclared ↔ IsDeclared findings name ∨
      ∃ container, latestContainer? findings name = some container ∧
        IsDeclared findings container := by
  simp only [hasIn_iff, ContainerIn, lookup_containers_scan, latestContainer?,
    intersects_onlyDeclared_scan]

theorem hasIn_onlyDeclared_declaredPart :
    (scan (declaredPart findings)).hasIn name .onlyDeclared ↔
      IsDeclared findings name ∨ IsGroupedDeclared findings name := by
  rw [hasIn_onlyDeclared_scan, isDeclared_declaredPart]
  simp only [isDeclared_declaredPart]
  refine or_congr_right ⟨?_, ?_⟩
  · rintro ⟨container, hlatest, -⟩
    exact (latestContainer?_declaredPart findings name hlatest).1
  · intro h
    obtain ⟨container, hlatest⟩ :=
      Option.isSome_iff_exists.mp ((isSome_latestContainer?_declaredPart findings name).mpr h)
    exact ⟨container, hlatest, (latestContainer?_declaredPart findings name hlatest).2⟩

-- An inherited container makes a difference if it is named last: it hides a declared one, or is
-- declared in its own right without any occurrence of the annotation being so.
theorem hasIn_onlyDeclared_eq_iff :
    (scan findings).hasIn name .onlyDeclared =
        (scan (declaredPart findings)).hasIn name .onlyDeclared ↔
      IsDeclared findings name ∨
        ((∃ container, latestContainer? findings name = some container ∧
          IsDeclared findings container) ↔ IsGroupedDeclared findings name) := by
  rw [Bool.eq_iff_iff, hasIn_onlyDeclared_scan, hasIn_onlyDeclared_declaredPart]
  by_cases hdeclared : IsDeclared findings name
  · simp only [hdeclared, true_or]
  · simp only [hdeclared, false_or]

end Declared

end Record

end LayeredAnnotations
