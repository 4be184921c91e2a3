import LayeredAnnotations.Proofs.Level.Merge
import LayeredAnnotations.Proofs.Record.WellFormed

namespace LayeredAnnotations

namespace Level

-- A level of which every record comes from findings, and that no host has a part in.
inductive Built : Level → Prop
  | empty : Built .empty
  | recorded (findings : List Finding) (h : ∀ f ∈ findings, f.WellFormed) :
      Built (.recorded (.ofFindings findings))
  | expanding (x : Expander) {inner : Level} (h : Built inner) : Built (.expanding x inner)
  | layered {declared : Level} {ancestors : List Level} (h : ∀ l ∈ declared :: ancestors, Built l) :
      Built (.layered declared ancestors)

end Level

theorem wellFormed_firstNonEmpty {levels : List Answers} {f : Answers → Members}
    (h : ∀ l ∈ levels, (f l).WellFormed) : Members.WellFormed (firstNonEmpty f levels) := by
  induction levels with
  | nil => exact Members.wellFormed_nil
  | cons l rest ih =>
    obtain ⟨hl, hrest⟩ := List.forall_mem_cons.mp h
    rw [firstNonEmpty]
    split
    · exact ih hrest
    · next heq => exact heq ▸ hl

theorem Occurrence.WellFormed.merge {o : Occurrence} {others : List Occurrence} {defaults : Members}
    (h : ∀ p ∈ o :: others, p.WellFormed) (hdefaults : defaults.WellFormed) :
    (o.merge others defaults).WellFormed := by
  induction others generalizing o with
  | nil => exact h o List.mem_cons_self
  | cons p others ih =>
    obtain ⟨ho, hothers⟩ := List.forall_mem_cons.mp h
    obtain ⟨hp, hrest⟩ := List.forall_mem_cons.mp hothers
    rw [merge_cons]
    exact ih (List.forall_mem_cons.mpr ⟨ho.fill hp hdefaults, hrest⟩)

namespace Level.Built

theorem wellFormed_defaults {l : Level} (h : l.Built) (name : String) :
    Members.WellFormed (l.answers.ask (.defaults name)) := by
  induction h with
  | empty => exact Record.wellFormed_empty.defaultsOf name
  | recorded findings h => exact (Record.wellFormed_ofFindings h).defaultsOf name
  | expanding x h ih => exact ih
  | @layered declared ancestors h ih =>
    rw [answers_layered]
    apply wellFormed_firstNonEmpty
    intro a ha
    obtain ⟨l, hl, rfl⟩ := List.mem_map.mp (List.map_cons (f := answers) ▸ ha)
    exact ih l hl

-- Whatever is found on the levels below, no member is in it twice.
theorem wellFormed_find? {l : Level} (h : l.Built) {name : String} {o : Occurrence}
    (ho : l.answers.ask (.find? name) = some o) : o.WellFormed := by
  induction h generalizing o with
  | empty =>
    have hnothing : Record.empty.find? name = some o := ho
    exact Record.wellFormed_empty.find? hnothing
  | recorded findings h =>
    have hrecord : (Record.ofFindings findings).find? name = some o := ho
    exact (Record.wellFormed_ofFindings h).find? hrecord
  | expanding x h ih => exact ih ho
  | @layered declared ancestors h ih =>
    have hfound : ∀ p ∈ ((declared :: ancestors).map answers).filterMap (·.ask (.find? name)),
        p.WellFormed := by
      intro p hp
      obtain ⟨a, ha, hask⟩ := List.mem_filterMap.mp hp
      obtain ⟨l, hl, rfl⟩ := List.mem_map.mp ha
      exact ih l hl hask
    have hdefaults := wellFormed_defaults (.layered h) name
    rw [answers_layered] at ho hdefaults
    change Answers.merged? ((declared :: ancestors).map answers) name = some o at ho
    rw [Answers.merged?] at ho
    split at ho
    · cases ho
    · next p heq =>
      obtain rfl := Option.some.inj ho
      rw [heq] at hfound
      exact hfound p List.mem_cons_self
    · next p others _ heq =>
      obtain rfl := Option.some.inj ho
      rw [heq] at hfound
      exact Occurrence.WellFormed.merge hfound hdefaults

theorem distinct_ownMembers {l : Level} (h : l.Built) (name : String) :
    (l.answers.ownMembers name).Distinct := by
  cases ho : l.answers.ask (.find? name) with
  | none =>
    rw [Answers.ownMembers_of_find?_eq_none ho]
    exact List.nodup_nil
  | some o =>
    rw [Answers.ownMembers_of_find? ho]
    exact (h.wellFormed_find? ho).1.1

end Level.Built

end LayeredAnnotations
