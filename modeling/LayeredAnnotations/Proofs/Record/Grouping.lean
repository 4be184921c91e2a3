import LayeredAnnotations.Proofs.Record.Consistency
import LayeredAnnotations.Proofs.Record.Inheritance

namespace LayeredAnnotations

namespace Presence

theorem intersects_proper_of_onlyDeclared {p : Presence} (h : p.intersects .onlyDeclared) :
    p.intersects .proper := by
  simp_all [intersects_eq, onlyDeclared, proper]

theorem intersects_anywhere_of_intersects {p mask : Presence} (h : p.intersects mask) :
    p.intersects .anywhere := by
  rw [intersects_anywhere_iff]
  rintro rfl
  rw [nowhere_intersects] at h
  exact Bool.false_ne_true h

end Presence

namespace Record

section Scan

variable (findings : List Finding) (name : String)

-- An annotation has an entry if something was found that adds to it.
theorem isSome_lookup_entries_scan :
    ((scan findings).entries.lookup name).isSome ↔ ∃ f ∈ findings, f.target? = some name := by
  induction findings using List.reverseRecOn with
  | nil => simp [scan, empty]
  | append_singleton findings f ih =>
    rw [scan_concat, lookup_entries_step]
    simp only [List.mem_append, List.mem_singleton, or_and_right, exists_or, exists_eq_left, ← ih]
    split
    · next h => simp [h]
    · next h => simp [h]

-- An entry is not there for nothing.
theorem isSome_entryIn?_anywhere :
    ((scan findings).entryIn? name .anywhere).isSome ↔
      ((scan findings).entries.lookup name).isSome := by
  rw [entryIn?]
  cases hentry : (scan findings).entries.lookup name with
  | none => rfl
  | some entry =>
    have hpresent := (consistent_scan findings).present name entry hentry
    rw [Option.filter_some, if_pos ((Presence.intersects_anywhere_iff _).mpr hpresent)]

-- A container is there in its own right and groups an occurrence of the annotation that it was
-- named for.
theorem container_scan {name container : String}
    (h : (scan findings).containers.lookup name = some container) :
    ((scan findings).entryOf container).presence.intersects .proper ∧
      ∃ o, o.name = name ∧ ((scan findings).entryOf container).members.Groups o :=
  groupsNamed_iff.mp ((consistent_scan findings).containers name container h)

-- So a container never is without an occurrence where it is found at all.
theorem exists_grouped?_scan {name : String} {mask : Presence}
    (h : (scan findings).ContainerIn name mask) :
    ∃ o os, (scan findings).grouped? name mask = some (o :: os) := by
  obtain ⟨container, hcontainer, hmask⟩ := h
  obtain ⟨-, o, -, items, hitems, ho⟩ := container_scan findings hcontainer
  have hnested : o ∈ items.filterMap Value.scalarNested? := List.mem_filterMap.mpr ⟨_, ho, rfl⟩
  obtain ⟨p, ps, hps⟩ := List.exists_cons_of_ne_nil (List.ne_nil_of_mem hnested)
  have hgrouped : (scan findings).grouped? name mask =
      some ((items.filterMap Value.scalarNested?).map
        (·.withDefaults ((scan findings).defaultsOf name))) := by
    rw [grouped?_scan, latestContainer?, ← lookup_containers_scan, hcontainer, Option.bind_some,
      entryIn?_eq, if_pos hmask, Option.map_some, hitems]
    rfl
  rw [hps, List.map_cons] at hgrouped
  exact ⟨_, _, hgrouped⟩

theorem grouped?_of_container_eq_none {r : Record} (h : r.containers.lookup name = none)
    (mask : Presence) : r.grouped? name mask = none := by
  rw [grouped?, h]
  rfl

theorem grouped?_of_not_containerIn {r : Record} {mask : Presence}
    (h : ¬ r.ContainerIn name mask) : r.grouped? name mask = none := by
  cases hcontainer : r.containers.lookup name with
  | none => exact grouped?_of_container_eq_none name hcontainer mask
  | some container =>
    have hmask : ¬ (r.entryOf container).presence.intersects mask :=
      fun hmask => h ⟨container, hcontainer, hmask⟩
    have hentry : r.entryIn? container mask = none := by rw [entryIn?_eq, if_neg hmask]
    rw [grouped?, hcontainer, Option.bind_eq_bind, Option.bind_some, hentry]
    rfl

-- Where an annotation is looked for, it is found in its own entry or in its container.
theorem isSome_findIn?_scan (mask : Presence) (own : Option Entry) :
    ((scan findings).findIn? name mask own).isSome ↔
      own.isSome ∨ (scan findings).ContainerIn name mask := by
  cases own with
  | some entry => simp [findIn?]
  | none =>
    by_cases h : (scan findings).ContainerIn name mask
    · obtain ⟨o, os, hgrouped⟩ := exists_grouped?_scan findings h
      simp [findIn?, hgrouped, h]
    · simp [findIn?, grouped?_of_not_containerIn name h, h]

theorem occurrencesIn_ne_nil_iff (mask : Presence) :
    (scan findings).occurrencesIn name mask ≠ [] ↔
      ((scan findings).entryIn? name mask).isSome ∨ (scan findings).ContainerIn name mask := by
  rw [occurrencesIn]
  by_cases h : (scan findings).ContainerIn name mask
  · obtain ⟨o, os, hgrouped⟩ := exists_grouped?_scan findings h
    simp [hgrouped, h]
  · rw [grouped?_of_not_containerIn name h, or_iff_left h]
    cases (scan findings).entryIn? name mask <;> simp

-- Whether an annotation has an entry, or a container to be found in.
def IsKnown (r : Record) (name : String) : Prop :=
  (r.entries.lookup name).isSome ∨ (r.containers.lookup name).isSome

-- The container of an annotation always is there in its own right.
theorem containerIn_scan {mask : Presence}
    (hmask : ∀ p : Presence, p.intersects .proper → p.intersects mask) :
    (scan findings).ContainerIn name mask ↔ ((scan findings).containers.lookup name).isSome := by
  rw [ContainerIn, Option.isSome_iff_exists]
  refine exists_congr fun container => and_iff_left_of_imp fun h => ?_
  exact hmask _ (container_scan findings h).1

theorem hasIn_proper_scan :
    (scan findings).hasIn name .proper ↔
      ((scan findings).entryIn? name .proper).isSome ∨
        ((scan findings).containers.lookup name).isSome := by
  rw [hasIn_iff, isSome_entryIn?, containerIn_scan findings name fun _ => id]

theorem isSome_lookup_of_entryIn? {r : Record} {name : String} {mask : Presence}
    (h : (r.entryIn? name mask).isSome) : (r.entries.lookup name).isSome := by
  obtain ⟨entry, hentry⟩ := Option.isSome_iff_exists.mp h
  rw [(Option.filter_eq_some_iff.mp hentry).1]
  rfl

theorem knows_scan_iff :
    ((scan findings).entries.has name || (scan findings).hasIn name .proper) ↔
      (scan findings).IsKnown name := by
  rw [Bool.or_eq_true, hasIn_proper_scan, ← or_assoc, Keyed.has, IsKnown,
    or_iff_left_of_imp isSome_lookup_of_entryIn?]

theorem containerIn_anywhere_scan :
    (scan findings).ContainerIn name .anywhere ↔
      ((scan findings).containers.lookup name).isSome :=
  containerIn_scan findings name fun _ => Presence.intersects_anywhere_of_intersects

theorem isSome_find?_scan : ((scan findings).find? name).isSome ↔ (scan findings).IsKnown name := by
  rw [find?, isSome_findIn?_scan, containerIn_anywhere_scan, IsKnown]

theorem occurrencesIn_ne_nil_scan :
    (scan findings).occurrencesIn name .anywhere ≠ [] ↔ (scan findings).IsKnown name := by
  rw [occurrencesIn_ne_nil_iff, isSome_entryIn?_anywhere, containerIn_anywhere_scan, IsKnown]

end Scan

theorem hasIn_mono {r : Record} {name : String} {mask mask' : Presence}
    (h : ∀ p : Presence, p.intersects mask → p.intersects mask') (hhas : r.hasIn name mask) :
    r.hasIn name mask' := by
  rw [hasIn_iff] at hhas ⊢
  refine hhas.imp (h _) ?_
  exact Exists.imp fun container => And.imp_right (h _)

end Record

end LayeredAnnotations
