import LayeredAnnotations.Proofs.Record.Carriers
import LayeredAnnotations.Proofs.Record.Contents
import LayeredAnnotations.Proofs.Value.Reach

namespace LayeredAnnotations

-- Whether an occurrence is among those that a container with these members groups.
def Members.Groups (m : Members) (o : Occurrence) : Prop :=
  ∃ items, m.lookup Occurrence.soleMember = some (.array items) ∧ Value.nested o ∈ items

namespace Presence

-- As an annotation of another annotation.
def onlyMeta : Presence := { declaredMeta := true, inheritedMeta := true }

theorem intersects_anywhere_iff (p : Presence) : p.intersects .anywhere ↔ p ≠ .nowhere := by
  simp [intersects, inter, anywhere]

end Presence

theorem Finding.intersects_anywhere {f : Finding} {name : String} (h : f.target? = some name) :
    f.presence.intersects .anywhere := by
  cases f with
  | present origin o => cases origin <;> rfl
  | carried origin carrier o => cases origin <;> rfl
  | repeated origin container o => cases origin <;> rfl
  | defaults name' values => exact nomatch h

namespace Record

-- No map has a key twice.
structure KeysDistinct (r : Record) : Prop where
  entries : r.entries.Distinct
  carriers : r.carriers.Distinct
  declaredCarriers : r.declaredCarriers.Distinct
  containers : r.containers.Distinct
  defaults : r.defaults.Distinct

-- The names that are noted for a key.
def namesUnder (key : String) (lists : Keyed (List String)) : List String :=
  (lists.lookup key).getD []

-- Whether exactly the annotations that are present in one of the ways of a mask have a list of names,
-- and whether every list has a name and no name twice.
structure ListsFor (r : Record) (mask : Presence) (lists : Keyed (List String)) : Prop where
  has_iff : ∀ key, lists.has key ↔ (r.entryIn? key mask).isSome
  names : ∀ key names, lists.lookup key = some names → names ≠ [] ∧ names.Nodup

-- Whether an annotation is there in its own right and groups an occurrence of another one.
def GroupsNamed (r : Record) (container name : String) : Prop :=
  ∃ entry, r.entryIn? container .proper = some entry ∧
    ∃ o, o.name = name ∧ entry.members.Groups o

-- How the parts of a record agree with each other, whatever has been found so far.
structure Consistent (r : Record) : Prop where
  distinct : r.KeysDistinct
  -- an entry is not there for nothing
  present : ∀ name entry, r.entries.lookup name = some entry → entry.presence ≠ .nowhere
  -- a container has an occurrence of every annotation that it was named for
  containers : ∀ name container, r.containers.lookup name = some container →
    r.GroupsNamed container name
  -- who carries an annotation is noted if and only if something does
  carriers : r.ListsFor .onlyMeta r.carriers
  declaredCarriers : r.ListsFor Origin.declared.metaPresence r.declaredCarriers
  declaredAmong : ∀ name, namesUnder name r.declaredCarriers ⊆ namesUnder name r.carriers

-- Whether a value is an explicit member of an annotation, or a default of one.
def Holds (r : Record) (v : Value) : Prop :=
  (∃ name entry member, (name, entry) ∈ r.entries ∧ (member, v) ∈ entry.members) ∨
    ∃ name values member, (name, values) ∈ r.defaults ∧ (member, v) ∈ values

theorem KeysDistinct.step {r : Record} (h : r.KeysDistinct) (f : Finding) :
    (r.step f).KeysDistinct where
  entries := distinct_entries_step h.entries f
  carriers := by
    cases f with
    | carried origin carrier o => exact Keyed.distinct_update _ _ _ h.carriers
    | _ => exact h.carriers
  declaredCarriers := by
    cases f with
    | carried origin carrier o =>
      cases origin with
      | declared => exact Keyed.distinct_update _ _ _ h.declaredCarriers
      | inherited => exact h.declaredCarriers
    | _ => exact h.declaredCarriers
  containers := by
    cases f with
    | repeated origin container o => exact Keyed.distinct_update _ _ _ h.containers
    | _ => exact h.containers
  defaults := by
    cases f with
    | defaults name values => exact Keyed.distinct_update _ _ _ h.defaults
    | _ => exact h.defaults

theorem isSome_entryIn?_step (r : Record) (f : Finding) (name : String) (mask : Presence) :
    ((r.step f).entryIn? name mask).isSome ↔
      (r.entryIn? name mask).isSome ∨ f.target? = some name ∧ f.presence.intersects mask := by
  rw [isSome_entryIn?, isSome_entryIn?, intersects_step]

theorem mem_namesUnder_noteUnder {key name k n : String} {lists : Keyed (List String)} :
    n ∈ namesUnder k (noteUnder key name lists) ↔ n ∈ namesUnder k lists ∨ k = key ∧ n = name := by
  rw [namesUnder, lookup_noteUnder, namesUnder]
  split
  · next hk =>
    subst hk
    by_cases hmem : name ∈ (lists.lookup k).getD []
    · simp only [List.contains_iff_mem, hmem, if_true, Option.getD_some, true_and]
      exact (or_iff_left_of_imp fun heq => heq ▸ hmem).symm
    · simp [hmem]
  · next hk => simp [hk]

namespace ListsFor

variable {r : Record} {mask : Presence} {lists : Keyed (List String)} {f : Finding}

theorem nodup_namesUnder (h : r.ListsFor mask lists) (key : String) :
    (namesUnder key lists).Nodup := by
  rw [namesUnder]
  cases hlists : lists.lookup key with
  | none => exact List.nodup_nil
  | some names => exact (h.names key names hlists).2

-- A finding by which nothing becomes present in one of these ways leaves the lists alone.
theorem keep (h : r.ListsFor mask lists) (hmask : f.presence.intersects mask = false) :
    (r.step f).ListsFor mask lists where
  has_iff key := by
    rw [h.has_iff, isSome_entryIn?_step, hmask]
    simp
  names := h.names

-- Any other one notes a name for the annotation that it is about.
theorem note (h : r.ListsFor mask lists) {key : String} (htarget : f.target? = some key)
    (hmask : f.presence.intersects mask) (name : String) :
    (r.step f).ListsFor mask (noteUnder key name lists) where
  has_iff k := by
    rw [isSome_entryIn?_step, ← h.has_iff, Keyed.has, Keyed.has, lookup_noteUnder, htarget]
    by_cases hk : k = key
    · simp [hk, hmask]
    · simp [hk, Ne.symm hk]
  names k names hnames := by
    rw [lookup_noteUnder] at hnames
    split at hnames
    · obtain rfl := Option.some.inj hnames
      have hbefore := h.nodup_namesUnder key
      split
      · next hmem => exact ⟨List.ne_nil_of_mem (List.contains_iff_mem.mp hmem), hbefore⟩
      · next hmem =>
        have hname : name ∉ namesUnder key lists := mt List.contains_iff_mem.mpr hmem
        exact ⟨List.concat_ne_nil _ _, Keyed.nodup_append_of_notMem hbefore hname⟩
    · exact h.names k names hnames

end ListsFor

theorem groupsNamed_iff {r : Record} {container name : String} :
    r.GroupsNamed container name ↔ (r.entryOf container).presence.intersects .proper ∧
      ∃ o, o.name = name ∧ (r.entryOf container).members.Groups o := by
  rw [GroupsNamed, entryIn?_eq]
  split
  · next hmask => simp [hmask]
  · next hmask => simp [hmask]

-- What is grouped in a container stays there: members that are given later do not replace the array,
-- and another occurrence goes behind it.
theorem groups_step {r : Record} {container : String} {o : Occurrence}
    (h : (r.entryOf container).members.Groups o) (f : Finding) :
    ((r.step f).entryOf container).members.Groups o := by
  obtain ⟨items, hitems, ho⟩ := h
  have hvalue := lookup_soleMember_step r f container
  rw [hitems] at hvalue
  cases hgrouped : f.groupedIn? container with
  | none =>
    rw [hgrouped] at hvalue
    exact ⟨items, hvalue, ho⟩
  | some p =>
    rw [hgrouped] at hvalue
    exact ⟨_, hvalue, List.mem_append_left _ ho⟩

-- An occurrence that is grouped is there afterwards, whatever value stood in its way.
theorem groups_step_repeated (r : Record) (origin : Origin) (container : String) (o : Occurrence) :
    ((r.step (.repeated origin container o)).entryOf container).members.Groups o := by
  have hvalue := lookup_soleMember_step r (.repeated origin container o) container
  have hgrouped : (Finding.repeated origin container o).groupedIn? container = some o := if_pos rfl
  rw [hgrouped] at hvalue
  exact ⟨_, hvalue, List.mem_append_right _ (List.mem_singleton_self _)⟩

theorem GroupsNamed.step {r : Record} {container name : String} (h : r.GroupsNamed container name)
    (f : Finding) : (r.step f).GroupsNamed container name := by
  rw [groupsNamed_iff] at h ⊢
  obtain ⟨hproper, o, hname, ho⟩ := h
  exact ⟨(intersects_step r f container .proper).mpr (Or.inl hproper), o, hname, groups_step ho f⟩

theorem groupsNamed_step_repeated (r : Record) (origin : Origin) (container : String)
    (o : Occurrence) : (r.step (.repeated origin container o)).GroupsNamed container o.name := by
  rw [groupsNamed_iff]
  have hproper : origin.presence.intersects .proper := by cases origin <;> rfl
  exact ⟨(intersects_step _ _ _ _).mpr (Or.inr ⟨rfl, hproper⟩), o, rfl,
    groups_step_repeated r origin container o⟩

theorem consistent_empty : empty.Consistent where
  distinct := ⟨List.nodup_nil, List.nodup_nil, List.nodup_nil, List.nodup_nil, List.nodup_nil⟩
  present _ _ := nofun
  containers _ _ := nofun
  carriers := ⟨fun _ => Iff.rfl, fun _ _ => nofun⟩
  declaredCarriers := ⟨fun _ => Iff.rfl, fun _ _ => nofun⟩
  declaredAmong _ := List.Subset.refl []

namespace Consistent

variable {r : Record}

theorem present_step (h : r.Consistent) (f : Finding) (name : String) (entry : Entry)
    (hentry : (r.step f).entries.lookup name = some entry) : entry.presence ≠ .nowhere := by
  rw [lookup_entries_step] at hentry
  split at hentry
  · next htarget =>
    obtain rfl := Option.some.inj hentry
    rw [← Presence.intersects_anywhere_iff, Presence.intersects_union, Bool.or_eq_true]
    exact Or.inr (Finding.intersects_anywhere htarget)
  · exact h.present name entry hentry

theorem containers_step (h : r.Consistent) (f : Finding) (name container : String)
    (hcontainer : (r.step f).containers.lookup name = some container) :
    (r.step f).GroupsNamed container name := by
  rw [lookup_containers_step] at hcontainer
  obtain hnamed | ⟨-, hbefore⟩ := Option.or_eq_some_iff.mp hcontainer
  · obtain ⟨origin, o, rfl, rfl⟩ := Finding.containerOf?_eq_some_iff.mp hnamed
    exact groupsNamed_step_repeated r origin container o
  · exact (h.containers name container hbefore).step f

theorem carriers_step (h : r.Consistent) (f : Finding) :
    (r.step f).ListsFor .onlyMeta (r.step f).carriers := by
  cases f with
  | carried origin carrier o => exact h.carriers.note rfl (by cases origin <;> rfl) carrier
  | present origin o => exact h.carriers.keep (by cases origin <;> rfl)
  | repeated origin container o => exact h.carriers.keep (by cases origin <;> rfl)
  | defaults name values => exact h.carriers.keep rfl

theorem declaredCarriers_step (h : r.Consistent) (f : Finding) :
    (r.step f).ListsFor Origin.declared.metaPresence (r.step f).declaredCarriers := by
  cases f with
  | carried origin carrier o =>
    cases origin with
    | declared => exact h.declaredCarriers.note rfl rfl carrier
    | inherited => exact h.declaredCarriers.keep rfl
  | present origin o => exact h.declaredCarriers.keep (by cases origin <;> rfl)
  | repeated origin container o => exact h.declaredCarriers.keep (by cases origin <;> rfl)
  | defaults name values => exact h.declaredCarriers.keep rfl

-- Whatever is noted among the declared carriers is noted among all of them in the same step.
theorem declaredAmong_step (h : r.Consistent) (f : Finding) (name : String) :
    namesUnder name (r.step f).declaredCarriers ⊆ namesUnder name (r.step f).carriers := by
  cases f with
  | carried origin carrier o =>
    have hcarriers : (r.step (.carried origin carrier o)).carriers =
        noteUnder o.name carrier r.carriers := rfl
    intro n hn
    rw [hcarriers, mem_namesUnder_noteUnder]
    cases origin with
    | declared => exact (mem_namesUnder_noteUnder.mp hn).imp_left (@h.declaredAmong name n)
    | inherited => exact Or.inl (h.declaredAmong name hn)
  | _ => exact h.declaredAmong name

theorem step (h : r.Consistent) (f : Finding) : (r.step f).Consistent where
  distinct := h.distinct.step f
  present := h.present_step f
  containers := h.containers_step f
  carriers := h.carriers_step f
  declaredCarriers := h.declaredCarriers_step f
  declaredAmong := h.declaredAmong_step f

-- Only the flag is set, about which nothing is said here.
theorem sealed (h : r.Consistent) : r.sealed.Consistent where
  distinct := ⟨h.distinct.entries, h.distinct.carriers, h.distinct.declaredCarriers,
    h.distinct.containers, h.distinct.defaults⟩
  present := h.present
  containers := h.containers
  carriers := ⟨h.carriers.has_iff, h.carriers.names⟩
  declaredCarriers := ⟨h.declaredCarriers.has_iff, h.declaredCarriers.names⟩
  declaredAmong := h.declaredAmong

end Consistent

theorem consistent_scan (findings : List Finding) : (scan findings).Consistent := by
  induction findings using List.reverseRecOn with
  | nil => exact consistent_empty
  | append_singleton findings f ih =>
    rw [scan_concat]
    exact ih.step f

-- The value that a container comes with stays in front, and one that it is given later is too late.
example :
    ((scan [.carried .declared "Service" ⟨"Tags", [("value", .string "first")], []⟩,
      .repeated .inherited "Tags" ⟨"Tag", [], []⟩,
      .present .declared ⟨"Tags", [("value", .string "late")], []⟩]).entryOf "Tags").members =
      [("value", .array [.string "first", .nested ⟨"Tag", [], []⟩])] := rfl

theorem membersHavePlaceholder_iff (m : Members) :
    membersHavePlaceholder m ↔ ∃ member v, (member, v) ∈ m ∧ v.hasPlaceholder := by
  rw [membersHavePlaceholder, List.any_eq_true, Prod.exists]

theorem hasExpressions_ofFindings_iff (findings : List Finding) :
    (ofFindings findings).hasExpressions ↔
      ∃ v, (ofFindings findings).Holds v ∧ v.hasPlaceholder := by
  have hflag : (ofFindings findings).hasExpressions ↔
      (∃ name entry, (name, entry) ∈ (ofFindings findings).entries ∧
        membersHavePlaceholder entry.members) ∨
      ∃ name values, (name, values) ∈ (ofFindings findings).defaults ∧
        membersHavePlaceholder values := by
    rw [ofFindings, sealed, Bool.or_eq_true, List.any_eq_true, List.any_eq_true, Prod.exists,
      Prod.exists]
  rw [hflag]
  simp only [membersHavePlaceholder_iff]
  constructor
  · rintro (⟨name, entry, hentry, member, v, hv, hplaceholder⟩ |
      ⟨name, values, hvalues, member, v, hv, hplaceholder⟩)
    · exact ⟨v, Or.inl ⟨name, entry, member, hentry, hv⟩, hplaceholder⟩
    · exact ⟨v, Or.inr ⟨name, values, member, hvalues, hv⟩, hplaceholder⟩
  · rintro ⟨v, ⟨name, entry, member, hentry, hv⟩ | ⟨name, values, member, hvalues, hv⟩, hplaceholder⟩
    · exact Or.inl ⟨name, entry, hentry, member, v, hv, hplaceholder⟩
    · exact Or.inr ⟨name, values, hvalues, member, v, hv, hplaceholder⟩

-- Whatever is found in whatever order, the parts of a record agree with each other. Its entries are
-- present in exactly the ways that were found, its containers are those that were named last, and
-- the flag says whether an expression is written in any of its values.
theorem consistent_ofFindings (findings : List Finding) :
    let r := ofFindings findings
    r.Consistent ∧
      (∀ name mask, (r.entryIn? name mask).isSome ↔
        ∃ f ∈ findings, f.target? = some name ∧ f.presence.intersects mask) ∧
      (∀ name, r.containers.lookup name = latestContainer? findings name) ∧
      (r.hasExpressions = true ↔
        ∃ v, r.Holds v ∧ ∃ text, v.Reaches text ∧ Template.HasExpression text.toList) := by
  intro r
  refine ⟨(consistent_scan findings).sealed, ?_, lookup_containers_scan findings, ?_⟩
  · intro name mask
    exact (Bool.eq_iff_iff.mp (isSome_entryIn? (scan findings) name mask)).trans
      (intersects_scan findings name mask)
  · rw [hasExpressions_ofFindings_iff]
    exact exists_congr fun v => and_congr_right fun _ => v.hasPlaceholder_iff

end Record

end LayeredAnnotations
