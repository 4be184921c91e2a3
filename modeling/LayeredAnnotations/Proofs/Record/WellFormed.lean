import LayeredAnnotations.Proofs.Record.Scan

namespace LayeredAnnotations

-- What is found gives no member twice.
def Finding.WellFormed : Finding → Prop
  | .present _ o => o.WellFormed
  | .carried _ _ o => o.WellFormed
  | .repeated _ _ o => o.WellFormed
  | .defaults _ values => Members.WellFormed values

instance : DecidablePred Finding.WellFormed
  | .present _ o | .carried _ _ o | .repeated _ _ o => inferInstanceAs (Decidable o.WellFormed)
  | .defaults _ values => inferInstanceAs (Decidable (Members.WellFormed values))

def Entry.WellFormed (entry : Entry) : Prop := Members.WellFormed entry.members

theorem Entry.wellFormed_empty : ({} : Entry).WellFormed := Members.wellFormed_nil

namespace Record

structure WellFormed (r : Record) : Prop where
  distinct : r.entries.Distinct
  members : ∀ entry ∈ r.entries, entry.2.WellFormed
  defaults : ∀ entry ∈ r.defaults, Members.WellFormed entry.2

theorem wellFormed_empty : empty.WellFormed where
  distinct := List.nodup_nil
  members := List.forall_mem_nil _
  defaults := List.forall_mem_nil _

theorem wellFormed_group {o : Occurrence} (ho : o.WellFormed) {v : Value} (hv : v.WellFormed) :
    (group o v).WellFormed := by
  have hlast : ∀ w ∈ [Value.nested o], w.WellFormed :=
    List.forall_mem_singleton.mpr ((Value.wellFormed_nested o).mpr ho)
  cases v with
  | array items =>
    rw [group, Value.wellFormed_array]
    exact List.forall_mem_append.mpr ⟨(Value.wellFormed_array items).mp hv, hlast⟩
  | _ => exact (Value.wellFormed_array _).mpr (List.forall_mem_cons.mpr ⟨hv, hlast⟩)

theorem WellFormed.add {r : Record} (h : r.WellFormed) {o : Occurrence} (ho : o.WellFormed)
    (presence : Presence) : (r.add o presence).WellFormed where
  distinct := Keyed.distinct_update _ _ _ h.distinct
  members := by
    apply Keyed.forall_update (P := Entry.WellFormed) h.members o.name Entry.wellFormed_empty
    intro entry hentry
    exact Members.WellFormed.fill hentry ho.1
  defaults := h.defaults

theorem WellFormed.addTo {r : Record} (h : r.WellFormed) (container : String) {o : Occurrence}
    (ho : o.WellFormed) (presence : Presence) : (r.addTo container o presence).WellFormed where
  distinct := Keyed.distinct_update _ _ _ h.distinct
  members := by
    apply Keyed.forall_update (P := Entry.WellFormed) h.members container Entry.wellFormed_empty
    intro entry hentry
    have hnone : (Value.array []).WellFormed := (Value.wellFormed_array []).mpr (by simp)
    exact Members.WellFormed.update hentry _ hnone fun v hv => wellFormed_group ho hv
  defaults := h.defaults

theorem WellFormed.step {r : Record} (h : r.WellFormed) {f : Finding} (hf : f.WellFormed) :
    (r.step f).WellFormed := by
  cases f with
  | present origin o => exact h.add hf origin.presence
  | carried origin carrier o =>
    have hnoted : (r.noteCarrier origin o.name carrier).WellFormed :=
      ⟨h.distinct, h.members, h.defaults⟩
    exact hnoted.add hf origin.metaPresence
  | repeated origin container o => exact h.addTo container hf origin.presence
  | defaults name values =>
    exact ⟨h.distinct, h.members, Keyed.forall_update h.defaults name hf fun _ _ => hf⟩

theorem wellFormed_ofFindings {findings : List Finding} (h : ∀ f ∈ findings, f.WellFormed) :
    (ofFindings findings).WellFormed := by
  have hscan : (scan findings).WellFormed := by
    induction findings using List.reverseRecOn with
    | nil => exact wellFormed_empty
    | append_singleton findings f ih =>
      obtain ⟨hbefore, hf⟩ := List.forall_mem_append.mp h
      rw [scan_concat]
      exact (ih hbefore).step (hf f (List.mem_singleton_self f))
  exact ⟨hscan.distinct, hscan.members, hscan.defaults⟩

namespace WellFormed

variable {r : Record}

theorem lookup_entries (h : r.WellFormed) {name : String} {entry : Entry}
    (hentry : r.entries.lookup name = some entry) : entry.WellFormed :=
  h.members _ (Keyed.mem_of_lookup hentry)

theorem entryIn? (h : r.WellFormed) {name : String} {mask : Presence} {entry : Entry}
    (hentry : r.entryIn? name mask = some entry) : entry.WellFormed :=
  h.lookup_entries (Option.filter_eq_some_iff.mp hentry).1

theorem defaultsOf (h : r.WellFormed) (name : String) : Members.WellFormed (r.defaultsOf name) := by
  rw [Record.defaultsOf]
  cases hvalues : r.defaults.lookup name with
  | none => exact Members.wellFormed_nil
  | some values => exact h.defaults _ (Keyed.mem_of_lookup hvalues)

theorem occurrence (h : r.WellFormed) (name : String) {entry : Entry}
    (hentry : entry.WellFormed) : (r.occurrence name entry).WellFormed :=
  ⟨hentry, h.defaultsOf name⟩

theorem grouped? (h : r.WellFormed) {name : String} {mask : Presence} {os : List Occurrence}
    (hos : r.grouped? name mask = some os) : ∀ o ∈ os, o.WellFormed := by
  rw [Record.grouped?] at hos
  obtain ⟨container, -, hos⟩ := Option.bind_eq_some_iff.mp hos
  obtain ⟨entry, hentry, hos⟩ := Option.bind_eq_some_iff.mp hos
  obtain rfl := Option.some.inj hos
  intro o ho
  obtain ⟨p, hp, rfl⟩ := List.mem_map.mp ho
  obtain ⟨v, hv, hnested⟩ := List.mem_filterMap.mp hp
  have hwell : v.WellFormed := by
    cases hvalue : entry.members.lookup Occurrence.soleMember with
    | none => simp [hvalue] at hv
    | some value =>
      rw [hvalue] at hv
      exact ((h.entryIn? hentry).2 _ (Keyed.mem_of_lookup hvalue)).elements v hv
  exact (hwell.scalarNested? hnested).withDefaults (h.defaultsOf name)

theorem findIn? (h : r.WellFormed) {name : String} {mask : Presence} {own : Option Entry}
    (hown : ∀ entry, own = some entry → entry.WellFormed) {o : Occurrence}
    (ho : r.findIn? name mask own = some o) : o.WellFormed := by
  cases own with
  | some entry =>
    obtain rfl := Option.some.inj ho
    exact h.occurrence name (hown entry rfl)
  | none =>
    obtain ⟨os, hos, hhead⟩ := Option.bind_eq_some_iff.mp ho
    exact h.grouped? hos o (List.mem_of_head? hhead)

theorem find? (h : r.WellFormed) {name : String} {o : Occurrence} (ho : r.find? name = some o) :
    o.WellFormed :=
  h.findIn? (fun _ hentry => h.lookup_entries hentry) ho

theorem occurrencesIn (h : r.WellFormed) (name : String) (mask : Presence) :
    ∀ o ∈ r.occurrencesIn name mask, o.WellFormed := by
  intro o ho
  rw [Record.occurrencesIn] at ho
  split at ho
  · next os hos => exact h.grouped? hos o ho
  · obtain ⟨entry, hentry, rfl⟩ := Option.map_eq_some_iff.mp (Option.mem_toList.mp ho)
    exact h.occurrence name (h.entryIn? hentry)

end WellFormed

end Record

end LayeredAnnotations
