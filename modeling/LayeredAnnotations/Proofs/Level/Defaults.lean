import LayeredAnnotations.Level.Answers
import LayeredAnnotations.Proofs.Level.Built
import LayeredAnnotations.Proofs.Level.Lookup

namespace LayeredAnnotations

theorem Record.defaults_of_find? {r : Record} {name : String} {o : Occurrence}
    (h : r.find? name = some o) : o.defaults = r.defaultsOf name := by
  rw [find?] at h
  cases hown : r.entries.lookup name with
  | some entry =>
    rw [hown] at h
    obtain rfl := Option.some.inj h
    rfl
  | none =>
    rw [hown] at h
    obtain ⟨os, hos, hhead⟩ := Option.bind_eq_some_iff.mp h
    rw [grouped?] at hos
    obtain ⟨container, -, hos⟩ := Option.bind_eq_some_iff.mp hos
    obtain ⟨entry, -, hos⟩ := Option.bind_eq_some_iff.mp hos
    obtain rfl := Option.some.inj hos
    obtain ⟨p, -, rfl⟩ := List.mem_map.mp (List.mem_of_head? hhead)
    rfl

theorem Occurrence.defaults_merge (o p : Occurrence) (others : List Occurrence)
    (defaults : Members) : (o.merge (p :: others) defaults).defaults = defaults := by
  rw [merge_cons]
  induction others generalizing o p with
  | nil => rfl
  | cons q others ih => exact ih (o.fill p defaults) q

-- A typed annotation built from what is found under its name is the same as one built from the
-- members found there and the defaults of the annotation, if that is how the occurrence is made up.
theorem Answers.forall_build_eq_buildFrom_iff {a : Answers} {name : String} {o : Occurrence}
    (h : a.ask (.find? name) = some o) :
    (∀ (α : Type) [OfOccurrence α], OfOccurrence.name α = name →
      a.build α = a.buildFrom α name) ↔ o.name = name ∧ o.defaults = a.ask (.defaults name) := by
  constructor
  · intro hall
    have hself := @hall Occurrence ⟨name, Except.ok⟩ rfl
    simp only [build, buildFrom, h] at hself
    have heq : o = ⟨name, o.members, a.ask (.defaults name)⟩ := by
      simpa using hself
    rw [heq]
    exact ⟨rfl, rfl⟩
  · rintro ⟨hname, hdefaults⟩ α _ rfl
    obtain ⟨_, members, _⟩ := o
    simp only at hname hdefaults
    subst hname hdefaults
    simp only [build, buildFrom, h, Option.mapM_some]

namespace Level

def bears (name : String) (l : Level) : Bool := (l.answers.ask (.find? name)).isSome

mutual

-- The innermost level that has everything inside it on which an annotation is found.
def innermost (name : String) : Level → Level
  | .expanding _ inner => inner.innermost name
  | .forwarding inner => inner.innermost name
  | .layered declared ancestors =>
    match (if declared.bears name then [declared.innermost name] else [])
        ++ innermostAmong name ancestors with
    | [l] => l
    | _ => .layered declared ancestors
  | l => l
termination_by structural l => l

-- The same for each level that bears the annotation.
def innermostAmong (name : String) : List Level → List Level
  | [] => []
  | l :: rest =>
    (if l.bears name then [l.innermost name] else []) ++ innermostAmong name rest
termination_by structural ls => ls

end

section Bearers

variable (name : String)

theorem innermostAmong_eq_map (levels : List Level) :
    innermostAmong name levels = (levels.filter (bears name)).map (innermost name) := by
  induction levels with
  | nil => rfl
  | cons l rest ih =>
    rw [innermostAmong, ih, List.filter_cons]
    cases l.bears name <;> rfl

theorem innermost_layered (declared : Level) (ancestors : List Level) :
    (layered declared ancestors).innermost name =
      match ((declared :: ancestors).filter (bears name)).map (innermost name) with
      | [l] => l
      | _ => layered declared ancestors := by
  rw [← innermostAmong_eq_map, innermostAmong, innermost]

theorem map_find?_bearers (levels : List Level) :
    (levels.filter (bears name)).map (·.answers.ask (.find? name)) =
      ((levels.map answers).filterMap (·.ask (.find? name))).map some := by
  induction levels with
  | nil => rfl
  | cons l rest ih =>
    rw [List.filter_cons, bears, List.map_cons, List.filterMap_cons]
    cases h : l.answers.ask (.find? name) with
    | none => exact ih
    | some o =>
      rw [Option.isSome_some, if_pos rfl, List.map_cons, List.map_cons, h, ih]

theorem innermost_of_bearers_eq {declared l : Level} {ancestors : List Level}
    (h : (declared :: ancestors).filter (bears name) = [l]) :
    (layered declared ancestors).innermost name = l.innermost name := by
  rw [innermost_layered, h, List.map_singleton]

theorem innermost_of_several_bearers {declared : Level} {ancestors : List Level}
    (h : 2 ≤ ((declared :: ancestors).filter (bears name)).length) :
    (layered declared ancestors).innermost name = layered declared ancestors := by
  rw [innermost_layered]
  split
  · next heq =>
    have hlength := congrArg List.length heq
    rw [List.length_map, List.length_singleton] at hlength
    omega
  · rfl

-- The occurrence of a single level is taken over as it is. Only where several are put together do
-- the defaults of all levels come in.
theorem find?_layered_cases {declared : Level} {ancestors : List Level} {o : Occurrence}
    (h : (layered declared ancestors).answers.ask (.find? name) = some o) :
    (∃ l, (declared :: ancestors).filter (bears name) = [l] ∧
      l.answers.ask (.find? name) = some o) ∨
    2 ≤ ((declared :: ancestors).filter (bears name)).length ∧
      o.defaults = (layered declared ancestors).answers.ask (.defaults name) := by
  have hbearers := map_find?_bearers name (declared :: ancestors)
  rw [answers_layered] at h ⊢
  change Answers.merged? ((declared :: ancestors).map answers) name = some o at h
  rw [Answers.merged?] at h
  cases hfound : ((declared :: ancestors).map answers).filterMap (·.ask (.find? name)) with
  | nil =>
    rw [hfound] at h
    cases h
  | cons p others =>
    rw [hfound] at h hbearers
    cases others with
    | nil =>
      obtain rfl := Option.some.inj h
      exact Or.inl (List.map_eq_singleton_iff.mp hbearers)
    | cons q others =>
      obtain rfl := Option.some.inj h
      have hlength := congrArg List.length hbearers
      rw [List.length_map, List.length_map, List.length_cons, List.length_cons] at hlength
      exact Or.inr ⟨by omega, Occurrence.defaults_merge p q others _⟩

-- The defaults that come with an occurrence are those of the innermost level, however deep it is
-- and whatever the levels around it have.
theorem defaults_of_find? {l : Level} {o : Occurrence}
    (h : l.answers.ask (.find? name) = some o) :
    o.defaults = (l.innermost name).answers.ask (.defaults name) := by
  induction l with
  | empty =>
    have hrecord : Record.empty.find? name = some o := h
    exact Record.defaults_of_find? hrecord
  | recorded r =>
    have hrecord : r.find? name = some o := h
    exact Record.defaults_of_find? hrecord
  | expanding x inner ih => exact ih h
  | layered declared ancestors ih =>
    rcases find?_layered_cases name h with ⟨l, hl, hask⟩ | ⟨hseveral, hdefaults⟩
    · have hmem : l ∈ (declared :: ancestors).filter (bears name) := by
        rw [hl]
        exact List.mem_singleton_self l
      rw [innermost_of_bearers_eq name hl]
      exact ih l (List.mem_filter.mp hmem).1 hask
    · rw [innermost_of_several_bearers name hseveral]
      exact hdefaults
  | forwarding inner ih => exact ih h

end Bearers

-- An element that bears a marker, and an ancestor that knows nothing but the defaults of it.
def markedElement : Level := .recorded (.ofFindings [.present .declared ⟨"Tag", [], []⟩])

def knowingAncestor : Level := .recorded (.ofFindings [.defaults "Tag" [("value", .string "d")]])

theorem built_layered_knowingAncestor : (layered markedElement [knowingAncestor]).Built :=
  .layered (List.forall_mem_cons.mpr
    ⟨.recorded _ (by decide), List.forall_mem_singleton.mpr (.recorded _ (by decide))⟩)

-- Where a single level bears an annotation, what is found may come without the defaults that the
-- layered level has for it, and typed annotations built from it lack them.
theorem not_forall_defaults_find?_eq :
    (¬ ∀ (declared : Level) (ancestors : List Level), (layered declared ancestors).Built →
      ∀ (name : String) (o : Occurrence),
        (layered declared ancestors).answers.ask (.find? name) = some o →
          o.defaults = (layered declared ancestors).answers.ask (.defaults name)) ∧
    ¬ ∀ (declared : Level) (ancestors : List Level), (layered declared ancestors).Built →
      ∀ (α : Type) [OfOccurrence α],
        (layered declared ancestors).answers.build α =
          (layered declared ancestors).answers.buildFrom α (OfOccurrence.name α) := by
  have hfind : (layered markedElement [knowingAncestor]).answers.ask (.find? "Tag") =
      some ⟨"Tag", [], []⟩ := rfl
  constructor
  · intro h
    have hdefaults := h markedElement [knowingAncestor] built_layered_knowingAncestor "Tag" _ hfind
    exact nomatch congrArg List.length hdefaults
  · intro h
    have hbuild := h markedElement [knowingAncestor] built_layered_knowingAncestor
    have hdefaults := ((Answers.forall_build_eq_buildFrom_iff hfind).mp fun α _ hname =>
      hname ▸ hbuild α).2
    exact nomatch congrArg List.length hdefaults

-- The defaults that an occurrence comes with are those of the innermost level that has everything
-- in it that bears the annotation. That is the layered level itself if several of its levels do; if
-- only one does, its occurrence is handed on unchanged. Typed annotations are the same whether they
-- are built from the occurrence or from its members and the defaults of the layered level, exactly
-- if the occurrence has the name that it was asked for by and these defaults.
theorem defaults_find?_layered (declared : Level) (ancestors : List Level) (name : String)
    {o : Occurrence} (h : (layered declared ancestors).answers.ask (.find? name) = some o) :
    let whole := layered declared ancestors
    let bearers := (declared :: ancestors).filter (bears name)
    let defaults := whole.answers.ask (.defaults name)
    o.defaults = (whole.innermost name).answers.ask (.defaults name) ∧
    (2 ≤ bearers.length → o.defaults = defaults) ∧
    (∀ l, bearers = [l] → l.answers.ask (.find? name) = some o) ∧
    ((∀ (α : Type) [OfOccurrence α], OfOccurrence.name α = name →
      whole.answers.build α = whole.answers.buildFrom α name) ↔
        o.name = name ∧ o.defaults = defaults) := by
  intro whole bearers defaults
  refine ⟨defaults_of_find? name h, ?_, ?_, whole.answers.forall_build_eq_buildFrom_iff h⟩
  · intro hseveral
    rw [defaults_of_find? name h, innermost_of_several_bearers name hseveral]
  · intro l hl
    rcases find?_layered_cases name h with ⟨l', hl', hask⟩ | ⟨hseveral, -⟩
    · obtain rfl := List.singleton_inj.mp (hl.symm.trans hl')
      exact hask
    · have hlength : (bearers.length) = 1 := congrArg List.length hl
      exact absurd (hlength ▸ hseveral) (by decide)

-- Inside another level, too, the marker is without the defaults that its ancestor knows.
theorem defaults_find?_layered_marker :
    let whole := layered .empty [layered markedElement [knowingAncestor]]
    let o : Occurrence := ⟨"Tag", [], []⟩
    whole.answers.ask (.find? "Tag") = some o ∧
      o.defaults = (whole.innermost "Tag").answers.ask (.defaults "Tag") ∧
      ¬ ∀ (α : Type) [OfOccurrence α], OfOccurrence.name α = "Tag" →
        whole.answers.build α = whole.answers.buildFrom α "Tag" := by
  intro whole o
  have hfind : whole.answers.ask (.find? "Tag") = some o := rfl
  obtain ⟨hinnermost, -, -, hbuild⟩ :=
    defaults_find?_layered .empty [layered markedElement [knowingAncestor]] "Tag" hfind
  refine ⟨hfind, hinnermost, fun hall => ?_⟩
  exact nomatch congrArg List.length (hbuild.mp hall).2

end Level

end LayeredAnnotations
