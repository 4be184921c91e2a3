import LayeredAnnotations.Level.Basic
import LayeredAnnotations.Proofs.Keyed

namespace LayeredAnnotations

namespace Occurrence

theorem merge_cons (o p : Occurrence) (others : List Occurrence) (defaults : Members) :
    o.merge (p :: others) defaults = (o.fill p defaults).merge others defaults := rfl

theorem name_merge (o : Occurrence) (others : List Occurrence) (defaults : Members) :
    (o.merge others defaults).name = o.name := by
  induction others generalizing o with
  | nil => rfl
  | cons p others ih => exact ih (o.fill p defaults)

theorem members_merge (o : Occurrence) (others : List Occurrence) (defaults : Members) :
    (o.merge others defaults).members = (others.map (·.members)).foldl Keyed.fill o.members := by
  induction others generalizing o with
  | nil => rfl
  | cons p others ih => exact ih (o.fill p defaults)

theorem lookup_merge (o : Occurrence) (others : List Occurrence) (defaults : Members)
    (member : String) :
    (o.merge others defaults).members.lookup member =
      (o :: others).findSome? fun p => p.members.lookup member := by
  rw [members_merge, Keyed.lookup_foldl_fill, List.findSome?_map, List.findSome?_cons]
  cases o.members.lookup member <;> rfl

theorem keys_merge {o : Occurrence} (h : Keyed.Distinct o.members) (others : List Occurrence)
    (defaults : Members) :
    Keyed.keys (o.merge others defaults).members =
      ((o :: others).flatMap fun p => Keyed.keys p.members).eraseDups := by
  rw [members_merge, Keyed.keys_foldl_fill h, List.flatMap_map, List.flatMap_cons]

end Occurrence

namespace Answers

-- The explicit members of an annotation as one level has them.
def ownMembers (a : Answers) (name : String) : Members :=
  Occurrence.membersOf (a.ask (.find? name))

theorem ownMembers_of_find? {a : Answers} {name : String} {o : Occurrence}
    (h : a.ask (.find? name) = some o) : a.ownMembers name = o.members := by
  rw [ownMembers, h, Occurrence.membersOf]

theorem ownMembers_of_find?_eq_none {a : Answers} {name : String}
    (h : a.ask (.find? name) = none) : a.ownMembers name = [] := by
  rw [ownMembers, h, Occurrence.membersOf]

-- Levels without the annotation have no say in its members.
theorem findSome?_found (levels : List Answers) (name member : String) :
    ((levels.filterMap (·.ask (.find? name))).findSome? fun o => o.members.lookup member) =
      levels.findSome? fun l => (l.ownMembers name).lookup member := by
  induction levels with
  | nil => rfl
  | cons l rest ih =>
    cases h : l.ask (.find? name) with
    | none =>
      simp only [List.filterMap_cons, h, List.findSome?_cons, ownMembers_of_find?_eq_none h, ih,
        List.lookup_nil]
    | some o =>
      simp only [List.filterMap_cons, h, List.findSome?_cons, ownMembers_of_find? h, ih]

theorem flatMap_found (levels : List Answers) (name : String) :
    ((levels.filterMap (·.ask (.find? name))).flatMap fun o => Keyed.keys o.members) =
      levels.flatMap fun l => (l.ownMembers name).keys := by
  induction levels with
  | nil => rfl
  | cons l rest ih =>
    cases h : l.ask (.find? name) with
    | none =>
      simp only [List.filterMap_cons, h, List.flatMap_cons, ownMembers_of_find?_eq_none h, ih]
      rfl
    | some o =>
      simp only [List.filterMap_cons, h, List.flatMap_cons, ownMembers_of_find? h, ih]

theorem merged?_eq_none_iff (levels : List Answers) (name : String) :
    merged? levels name = none ↔ ∀ l ∈ levels, l.ask (.find? name) = none := by
  rw [← List.filterMap_eq_nil_iff, merged?]
  split
  · next h => simp [h]
  · next h => simp [h]
  · next h => simp [h]

-- A single occurrence is merged with nothing; only its defaults are its own.
theorem exists_merge_of_merged? {levels : List Answers} {name : String} {o : Occurrence}
    (h : merged? levels name = some o) :
    ∃ first others, levels.filterMap (·.ask (.find? name)) = first :: others ∧
      o.name = (first.merge others (defaultsAmong levels name)).name ∧
      o.members = (first.merge others (defaultsAmong levels name)).members := by
  rw [merged?] at h
  split at h
  · exact nomatch h
  · next first hfound =>
    obtain rfl := Option.some.inj h
    exact ⟨first, [], hfound, rfl, rfl⟩
  · next first others _ hfound =>
    obtain rfl := Option.some.inj h
    exact ⟨first, others, hfound, rfl, rfl⟩

theorem name_merged? {levels : List Answers} {name : String} {o : Occurrence}
    (h : merged? levels name = some o) :
    (levels.findSome? (·.ask (.find? name))).map (·.name) = some o.name := by
  obtain ⟨first, others, hfound, hname, -⟩ := exists_merge_of_merged? h
  rw [← List.head?_filterMap, hfound, hname, Occurrence.name_merge]
  rfl

theorem lookup_merged? {levels : List Answers} {name : String} {o : Occurrence}
    (h : merged? levels name = some o) (member : String) :
    o.members.lookup member = levels.findSome? fun l => (l.ownMembers name).lookup member := by
  obtain ⟨first, others, hfound, -, hmembers⟩ := exists_merge_of_merged? h
  rw [hmembers, Occurrence.lookup_merge, ← hfound, findSome?_found]

theorem keys_merged? {levels : List Answers} {name : String} {o : Occurrence}
    (h : merged? levels name = some o) (hdistinct : ∀ l ∈ levels, (l.ownMembers name).Distinct) :
    Keyed.keys o.members = (levels.flatMap fun l => (l.ownMembers name).keys).eraseDups := by
  obtain ⟨first, others, hfound, -, hmembers⟩ := exists_merge_of_merged? h
  have hmem : first ∈ levels.filterMap (·.ask (.find? name)) := by
    rw [hfound]
    exact List.mem_cons_self
  obtain ⟨l, hl, hfirst⟩ := List.mem_filterMap.mp hmem
  have hkeys : Keyed.Distinct first.members := ownMembers_of_find? hfirst ▸ hdistinct l hl
  rw [hmembers, Occurrence.keys_merge hkeys, ← hfound, flatMap_found]

-- Whoever the levels are: an annotation is there if one of them has it, under the name that the
-- first of these gives it. Each member comes from the first level that has it, and stands where it
-- first appears. That no level gives a member twice is what keeps it from being there twice.
theorem find?_layered (declared : Answers) (ancestors : List Answers) (name : String) :
    let levels := declared :: ancestors
    let merged := (layered declared ancestors).ask (.find? name)
    (merged = none ↔ ∀ l ∈ levels, l.ask (.find? name) = none) ∧
    ∀ o, merged = some o →
      (levels.findSome? (·.ask (.find? name))).map (·.name) = some o.name ∧
      (∀ member v, o.members.lookup member = some v ↔
        levels.findSome? (fun l => (l.ownMembers name).lookup member) = some v) ∧
      ((∀ l ∈ levels, (l.ownMembers name).Distinct) →
        Keyed.Distinct o.members ∧
        Keyed.keys o.members = (levels.flatMap fun l => (l.ownMembers name).keys).eraseDups) := by
  intro levels merged
  refine ⟨merged?_eq_none_iff levels name, fun o ho => ⟨name_merged? ho, ?_, ?_⟩⟩
  · intro member v
    rw [lookup_merged? ho member]
  · intro hdistinct
    have hkeys := keys_merged? ho hdistinct
    refine ⟨?_, hkeys⟩
    rw [Keyed.Distinct, hkeys]
    exact nodup_eraseDups _

-- A level that has the annotation without members changes nothing, and `a` keeps its place although
-- an outer level has it behind `b`.
theorem find?_layered_marker :
    let own := (Record.ofFindings [.present .declared ⟨"Foo", [("a", .int 1)], []⟩]).answers
    let marker := (Record.ofFindings [.present .declared ⟨"Foo", [], []⟩]).answers
    let outer := (Record.ofFindings
      [.present .declared ⟨"Foo", [("b", .int 2), ("a", .int 9)], []⟩]).answers
    ∃ o, (layered own [marker, outer]).ask (.find? "Foo") = some o ∧
      o.members.lookup "a" = some (.int 1) ∧ o.members.lookup "b" = some (.int 2) ∧
      Keyed.keys o.members = ["a", "b"] := by
  intro own marker outer
  obtain ⟨hnone, hsome⟩ := find?_layered own [marker, outer] "Foo"
  cases h : (layered own [marker, outer]).ask (.find? "Foo") with
  | none => exact nomatch hnone.mp h own List.mem_cons_self
  | some o =>
    obtain ⟨-, hlookup, hkeys⟩ := hsome o h
    have hdistinct : ∀ l ∈ [own, marker, outer], (l.ownMembers "Foo").Distinct := by
      simp only [List.forall_mem_cons]
      decide
    exact ⟨o, rfl, (hlookup "a" _).mpr rfl, (hlookup "b" _).mpr rfl, (hkeys hdistinct).2⟩

end Answers

end LayeredAnnotations
