import LayeredAnnotations.Level.Record
import LayeredAnnotations.Proofs.WellFormed

namespace LayeredAnnotations

namespace Presence

theorem intersects_eq (p q : Presence) :
    p.intersects q =
      (p.declared && q.declared || p.inherited && q.inherited ||
        p.declaredMeta && q.declaredMeta || p.inheritedMeta && q.inheritedMeta) := by
  obtain ⟨a, b, c, d⟩ := p
  obtain ⟨a', b', c', d'⟩ := q
  simp only [intersects, inter]
  cases a && a' <;> cases b && b' <;> cases c && c' <;> cases d && d' <;> rfl

theorem intersects_union (p q mask : Presence) :
    (p.union q).intersects mask = (p.intersects mask || q.intersects mask) := by
  simp only [intersects_eq, union, Bool.and_or_distrib_right]
  ac_rfl

theorem nowhere_intersects (mask : Presence) : nowhere.intersects mask = false := by
  simp [intersects_eq, nowhere]

end Presence

namespace Finding

-- The annotation whose entry a finding adds to.
def target? : Finding → Option String
  | .present _ o => some o.name
  | .carried _ _ o => some o.name
  | .repeated _ container _ => some container
  | .defaults _ _ => none

-- The way in which that annotation is present by it.
def presence : Finding → Presence
  | .present origin _ => origin.presence
  | .carried origin _ _ => origin.metaPresence
  | .repeated origin _ _ => origin.presence
  | .defaults _ _ => .nowhere

-- What becomes of the members of that annotation.
def extend : Finding → Members → Members
  | .present _ o, m => m.fill o.members
  | .carried _ _ o, m => m.fill o.members
  | .repeated _ _ o, m => Keyed.update Occurrence.soleMember (.array []) (Record.group o) m
  | .defaults _ _, m => m

-- The members that it gives to that annotation.
def given : Finding → List String
  | .present _ o => Keyed.keys o.members
  | .carried _ _ o => Keyed.keys o.members
  | .repeated _ _ _ => [Occurrence.soleMember]
  | .defaults _ _ => []

-- The container that it names for a repeatable annotation.
def containerOf? (name : String) : Finding → Option String
  | .repeated _ container o => if name = o.name then some container else none
  | _ => none

theorem mem_keys_extend (f : Finding) (m : Members) (member : String) :
    member ∈ Keyed.keys (f.extend m) ↔ member ∈ m.keys ∨ member ∈ f.given := by
  cases f with
  | present origin o => exact Keyed.mem_keys_fill m o.members member
  | carried origin carrier o => exact Keyed.mem_keys_fill m o.members member
  | repeated origin container o =>
    rw [extend, Keyed.keys_update, given, List.mem_singleton]
    split
    · next hsole =>
      constructor
      · exact Or.inl
      · rintro (hmem | rfl)
        · exact hmem
        · exact hsole
    · rw [List.mem_append, List.mem_singleton]
  | defaults name values => simp [extend, given]

end Finding

namespace Record

-- An annotation that is not there has no members.
def entryOf (r : Record) (name : String) : Entry := (r.entries.lookup name).getD {}

theorem lookup_entries_step (r : Record) (f : Finding) (name : String) :
    (r.step f).entries.lookup name =
      if f.target? = some name then
        some ⟨f.extend (r.entryOf name).members, (r.entryOf name).presence.union f.presence⟩
      else r.entries.lookup name := by
  cases f with
  | present origin o =>
    simp only [step, add, Keyed.lookup_update, Finding.target?, Option.some.injEq, eq_comm]
    split
    · next h => subst h; rfl
    · rfl
  | carried origin carrier o =>
    simp only [step, noteCarrier, add, Keyed.lookup_update, Finding.target?, Option.some.injEq,
      eq_comm]
    split
    · next h => subst h; rfl
    · rfl
  | repeated origin container o =>
    simp only [step, addTo, Keyed.lookup_update, Finding.target?, Option.some.injEq, eq_comm]
    split
    · next h => subst h; rfl
    · rfl
  | defaults name' values => rfl

theorem entryOf_step (r : Record) (f : Finding) (name : String) :
    (r.step f).entryOf name =
      if f.target? = some name then
        ⟨f.extend (r.entryOf name).members, (r.entryOf name).presence.union f.presence⟩
      else r.entryOf name := by
  rw [entryOf, lookup_entries_step]
  split <;> rfl

theorem lookup_containers_step (r : Record) (f : Finding) (name : String) :
    (r.step f).containers.lookup name = (f.containerOf? name).or (r.containers.lookup name) := by
  cases f with
  | repeated origin container o =>
    rw [step, addTo, Keyed.put, Keyed.lookup_update, Finding.containerOf?]
    split <;> rfl
  | _ => rfl

-- The record of what was found, before it is known whether there is anything to expand.
def scan (findings : List Finding) : Record := findings.foldl step empty

theorem scan_concat (findings : List Finding) (f : Finding) :
    scan (findings ++ [f]) = (scan findings).step f := by
  rw [scan, List.foldl_append, List.foldl_cons, List.foldl_nil, scan]

-- Where a finding replaces what was there, the last one that says anything counts.
theorem lookup_scan_eq_latest {β : Type} (part : Record → Keyed β) {given? : Finding → Option β}
    {name : String} (hempty : (part empty).lookup name = none)
    (hstep : ∀ r f, (part (r.step f)).lookup name = (given? f).or ((part r).lookup name))
    (findings : List Finding) :
    (part (scan findings)).lookup name = findings.reverse.findSome? given? := by
  induction findings using List.reverseRecOn with
  | nil => exact hempty
  | append_singleton findings f ih =>
    rw [scan_concat, hstep, ih, List.reverse_concat, List.findSome?_cons]
    cases given? f <;> rfl

theorem lookup_containers_scan (findings : List Finding) (name : String) :
    (scan findings).containers.lookup name = findings.reverse.findSome? (·.containerOf? name) :=
  lookup_scan_eq_latest containers rfl (fun r f => lookup_containers_step r f name) findings

theorem intersects_step (r : Record) (f : Finding) (name : String) (mask : Presence) :
    ((r.step f).entryOf name).presence.intersects mask ↔
      (r.entryOf name).presence.intersects mask ∨
        f.target? = some name ∧ f.presence.intersects mask := by
  rw [entryOf_step]
  split
  · next h => simp only [Presence.intersects_union, Bool.or_eq_true, h, true_and]
  · next h => simp only [h, false_and, or_false]

-- One finding is enough for an annotation to be present in one of the ways of a mask.
theorem intersects_scan (findings : List Finding) (name : String) (mask : Presence) :
    ((scan findings).entryOf name).presence.intersects mask ↔
      ∃ f ∈ findings, f.target? = some name ∧ f.presence.intersects mask := by
  induction findings using List.reverseRecOn with
  | nil => simp [scan, entryOf, empty, Presence.nowhere_intersects]
  | append_singleton findings f ih =>
    rw [scan_concat, intersects_step]
    simp only [List.mem_append, List.mem_singleton, or_and_right, exists_or, exists_eq_left, ← ih]

theorem mem_keys_scan (findings : List Finding) (name member : String) :
    member ∈ Keyed.keys ((scan findings).entryOf name).members ↔
      ∃ f ∈ findings, f.target? = some name ∧ member ∈ f.given := by
  induction findings using List.reverseRecOn with
  | nil => simp [scan, entryOf, empty, Keyed.keys]
  | append_singleton findings f ih =>
    rw [scan_concat, entryOf_step]
    simp only [List.mem_append, List.mem_singleton, or_and_right, exists_or, exists_eq_left, ← ih]
    split
    · next h => simp only [Finding.mem_keys_extend, h, true_and]
    · next h => simp only [h, false_and, or_false]

theorem distinct_entries_step {r : Record} (h : r.entries.Distinct) (f : Finding) :
    (r.step f).entries.Distinct := by
  cases f with
  | defaults name values => exact h
  | _ => exact Keyed.distinct_update _ _ _ h

theorem distinct_entries_scan (findings : List Finding) : (scan findings).entries.Distinct := by
  induction findings using List.reverseRecOn with
  | nil => exact List.nodup_nil
  | append_singleton findings f ih =>
    rw [scan_concat]
    exact distinct_entries_step ih f

-- An annotation without an entry is present in no way, so that no mask lets it through.
theorem entryIn?_eq (r : Record) (name : String) (mask : Presence) :
    r.entryIn? name mask =
      if (r.entryOf name).presence.intersects mask then some (r.entryOf name) else none := by
  rw [entryIn?, entryOf]
  cases r.entries.lookup name with
  | none => rw [Option.filter_none, Option.getD_none, if_neg (by simp [Presence.nowhere_intersects])]
  | some entry => rfl

theorem isSome_entryIn? (r : Record) (name : String) (mask : Presence) :
    (r.entryIn? name mask).isSome = (r.entryOf name).presence.intersects mask := by
  rw [entryIn?_eq]
  split <;> simp_all

-- Whether the container of an annotation is present in one of the ways of a mask.
def ContainerIn (r : Record) (name : String) (mask : Presence) : Prop :=
  ∃ container, r.containers.lookup name = some container ∧
    (r.entryOf container).presence.intersects mask

theorem hasIn_iff (r : Record) (name : String) (mask : Presence) :
    r.hasIn name mask ↔ (r.entryOf name).presence.intersects mask ∨ r.ContainerIn name mask := by
  rw [hasIn, Bool.or_eq_true, isSome_entryIn?, ContainerIn]
  cases r.containers.lookup name with
  | none => simp
  | some container => simp [isSome_entryIn?]

-- What has a name has it once, so that it is listed if its entry passes the mask.
theorem mem_namesIn {r : Record} (h : r.entries.Distinct) (name : String) (mask : Presence) :
    name ∈ r.namesIn mask ↔ (r.entryOf name).presence.intersects mask := by
  rw [← isSome_entryIn?, entryIn?, namesIn]
  simp only [List.mem_map, List.mem_filter]
  constructor
  · rintro ⟨⟨key, entry⟩, ⟨hmem, hmask⟩, rfl⟩
    rw [Keyed.lookup_of_mem h hmem]
    simpa using hmask
  · intro hsome
    obtain ⟨entry, hentry⟩ := Option.isSome_iff_exists.mp hsome
    obtain ⟨hlookup, hmask⟩ := Option.filter_eq_some_iff.mp hentry
    exact ⟨(name, entry), ⟨Keyed.mem_of_lookup hlookup, hmask⟩, rfl⟩

end Record

end LayeredAnnotations
