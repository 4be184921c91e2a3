import LayeredAnnotations.Proofs.Record.Declared

namespace LayeredAnnotations

namespace Finding

-- The annotation that is found to carry another one.
def carrierOf? (name : String) : Finding → Option String
  | .carried _ carrier o => if o.name = name then some carrier else none
  | _ => none

theorem carrierOf?_eq_some_iff {f : Finding} {name carrier : String} :
    f.carrierOf? name = some carrier ↔
      ∃ origin o, f = .carried origin carrier o ∧ o.name = name := by
  cases f with
  | carried origin carrier' o =>
    rw [carrierOf?]
    constructor
    · intro h
      obtain ⟨hname, heq⟩ := Option.ite_none_right_eq_some.mp h
      exact ⟨origin, o, by rw [Option.some.inj heq], hname⟩
    · rintro ⟨origin', o', heq, rfl⟩
      injection heq with _ hcarrier ho
      rw [hcarrier, ho, if_pos rfl]
  | _ => simp [carrierOf?]

end Finding

namespace Record

-- The annotations that are found to carry another one, each as often as it is found.
def carriersFound (findings : List Finding) (name : String) : List String :=
  findings.filterMap (·.carrierOf? name)

-- There is a list as soon as there is a name, and it has every name once, in the order in which they
-- were first found.
def listed (found : List String) : Option (List String) :=
  if found = [] then none else some found.eraseDups

theorem isSome_listed (found : List String) : (listed found).isSome ↔ found ≠ [] := by
  rw [listed]
  split
  · next hnone => simp [hnone]
  · next hsome => simp [hsome]

theorem listed_concat (found : List String) (name : String) :
    listed (found ++ [name]) =
      let names := (listed found).getD []
      some (if names.contains name then names else names ++ [name]) := by
  have hnames : (listed found).getD [] = found.eraseDups := by
    rw [listed]
    split
    · next hnone => rw [hnone]; rfl
    · rfl
  rw [listed, if_neg (List.concat_ne_nil name found), eraseDups_concat, hnames]
  simp only [List.contains_iff_mem, List.mem_eraseDups]

theorem lookup_noteUnder (key name : String) (lists : Keyed (List String)) (k : String) :
    (noteUnder key name lists).lookup k =
      if k = key then
        let names := (lists.lookup key).getD []
        some (if names.contains name then names else names ++ [name])
      else lists.lookup k :=
  Keyed.lookup_update key [] _ lists k

theorem lookup_scan_eq_listed (part : Record → Keyed (List String)) {given? : Finding → Option String}
    {name : String} (hempty : (part empty).lookup name = none)
    (hstep : ∀ r f, (part (r.step f)).lookup name =
      match given? f with
      | some n =>
        let names := ((part r).lookup name).getD []
        some (if names.contains n then names else names ++ [n])
      | none => (part r).lookup name)
    (findings : List Finding) :
    (part (scan findings)).lookup name = listed (findings.filterMap given?) := by
  induction findings using List.reverseRecOn with
  | nil => exact hempty
  | append_singleton findings f ih =>
    rw [scan_concat, hstep, ih, List.filterMap_append]
    cases hf : given? f with
    | none => rw [List.filterMap_cons_none hf, List.filterMap_nil, List.append_nil]
    | some n => rw [List.filterMap_cons_some hf, List.filterMap_nil, listed_concat]

section Carriers

variable (findings : List Finding) (name : String)

theorem lookup_carriers_scan :
    (scan findings).carriers.lookup name =
      listed (carriersFound findings name) := by
  refine lookup_scan_eq_listed carriers rfl (fun r f => ?_) findings
  cases f with
  | carried origin carrier o =>
    change (noteUnder o.name carrier r.carriers).lookup name = _
    rw [lookup_noteUnder, Finding.carrierOf?]
    by_cases hname : o.name = name
    · simp [hname]
    · simp [hname, Ne.symm hname]
  | _ => rfl

-- The list of what is declared is the one that there is without inherited findings.
theorem lookup_declaredCarriers_scan :
    (scan findings).declaredCarriers.lookup name =
      listed (carriersFound (declaredPart findings) name) := by
  rw [carriersFound, declaredPart, List.filterMap_filter]
  refine lookup_scan_eq_listed declaredCarriers rfl (fun r f => ?_) findings
  cases f with
  | carried origin carrier o =>
    cases origin with
    | declared =>
      change (noteUnder o.name carrier r.declaredCarriers).lookup name = _
      rw [lookup_noteUnder, Finding.carrierOf?]
      by_cases hname : o.name = name
      · simp [hname, Finding.isInherited]
      · simp [hname, Ne.symm hname, Finding.isInherited]
    | inherited => rfl
  | _ => simp [Finding.carrierOf?, step, add, addTo]

theorem isSome_lookup_declaredCarriers_scan :
    ((scan findings).declaredCarriers.lookup name).isSome ↔ IsCarriedDeclared findings name := by
  rw [lookup_declaredCarriers_scan, isSome_listed]
  constructor
  · intro h
    obtain ⟨carrier, hcarrier⟩ := List.exists_mem_of_ne_nil _ h
    obtain ⟨f, hf, hcarried⟩ := List.mem_filterMap.mp hcarrier
    obtain ⟨hfindings, hinherited⟩ := mem_declaredPart.mp hf
    obtain ⟨origin, o, rfl, hname⟩ := Finding.carrierOf?_eq_some_iff.mp hcarried
    cases origin with
    | declared => exact ⟨carrier, o, hfindings, hname⟩
    | inherited => exact nomatch hinherited
  · rintro ⟨carrier, o, hmem, hname⟩
    have hf := mem_declaredPart.mpr ⟨hmem, rfl⟩
    have hcarried : Finding.carrierOf? name (.carried .declared carrier o) = some carrier :=
      if_pos hname
    exact List.ne_nil_of_mem (List.mem_filterMap.mpr ⟨_, hf, hcarried⟩)

end Carriers

end Record

end LayeredAnnotations
