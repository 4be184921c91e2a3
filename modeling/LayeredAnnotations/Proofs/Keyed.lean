import LayeredAnnotations.Keyed
import Mathlib.Data.List.Induction

namespace LayeredAnnotations

-- The last name is only kept if it is not there already.
theorem eraseDups_concat (names : List String) (name : String) :
    (names ++ [name]).eraseDups =
      if name ∈ names then names.eraseDups else names.eraseDups ++ [name] := by
  rw [List.eraseDups_append, List.cons_removeAll, List.nil_removeAll]
  by_cases h : name ∈ names
  · simp [h]
  · simp [h, List.eraseDups_cons]

theorem eraseDups_of_nodup {names : List String} (h : names.Nodup) : names.eraseDups = names := by
  induction names using List.reverseRecOn with
  | nil => rfl
  | append_singleton names name ih =>
    obtain ⟨hnames, -, hdisjoint⟩ := List.nodup_append.mp h
    have hname : name ∉ names := by
      intro hmem
      exact hdisjoint name hmem name (List.mem_singleton_self name) rfl
    rw [eraseDups_concat, if_neg hname, ih hnames]

theorem nodup_eraseDups (names : List String) : names.eraseDups.Nodup := by
  induction names using List.reverseRecOn with
  | nil => exact List.nodup_nil
  | append_singleton names name ih =>
    rw [eraseDups_concat]
    split
    · exact ih
    · next hname => exact Keyed.nodup_append_of_notMem ih (mt List.mem_eraseDups.mp hname)

-- What comes first may have its duplicates erased beforehand.
theorem eraseDups_eraseDups_append (names others : List String) :
    (names.eraseDups ++ others).eraseDups = (names ++ others).eraseDups := by
  induction others using List.reverseRecOn with
  | nil =>
    rw [List.append_nil, List.append_nil]
    exact eraseDups_of_nodup (nodup_eraseDups names)
  | append_singleton others other ih =>
    rw [← List.append_assoc, ← List.append_assoc, eraseDups_concat, eraseDups_concat, ih]
    simp only [List.mem_append, List.mem_eraseDups]

namespace Keyed

variable {α : Type}

theorem fill_concat (m other : Keyed α) (key : String) (a : α) :
    m.fill (other ++ [(key, a)]) = (m.fill other).putAbsent key a := by
  simp only [fill, List.foldl_append, List.foldl_cons, List.foldl_nil]

-- What is there already stays in front.
theorem prefix_fill (m other : Keyed α) : m <+: m.fill other := by
  induction other using List.reverseRecOn with
  | nil => exact List.prefix_refl m
  | append_singleton other entry ih =>
    obtain ⟨key, a⟩ := entry
    rw [fill_concat, putAbsent]
    split
    · exact ih
    · exact ih.trans (List.prefix_append _ _)

theorem prefix_foldl_fill (m : Keyed α) (others : List (Keyed α)) : m <+: others.foldl fill m := by
  induction others generalizing m with
  | nil => exact List.prefix_refl m
  | cons other others ih => exact (prefix_fill m other).trans (ih (m.fill other))

theorem keys_concat (m : Keyed α) (key : String) (a : α) :
    keys (m ++ [(key, a)]) = keys m ++ [key] := by
  simp only [keys, List.map_append, List.map_cons, List.map_nil]

-- New keys go to the end, in the order of `other`.
theorem keys_fill {m : Keyed α} (h : Distinct m) (other : Keyed α) :
    keys (m.fill other) = (keys m ++ keys other).eraseDups := by
  induction other using List.reverseRecOn with
  | nil =>
    rw [show keys ([] : Keyed α) = [] from rfl, List.append_nil]
    exact (eraseDups_of_nodup h).symm
  | append_singleton other entry ih =>
    obtain ⟨key, a⟩ := entry
    rw [fill_concat, keys_putAbsent, keys_concat, ← List.append_assoc, eraseDups_concat, ih]
    simp only [List.mem_eraseDups]

theorem distinct_concat_iff (m : Keyed α) (key : String) (a : α) :
    Distinct (m ++ [(key, a)]) ↔ Distinct m ∧ key ∉ keys m := by
  rw [Distinct, keys_concat, List.nodup_append]
  constructor
  · rintro ⟨hm, -, hdisjoint⟩
    exact ⟨hm, fun hmem => hdisjoint key hmem key (List.mem_singleton_self key) rfl⟩
  · rintro ⟨hm, hkey⟩
    exact List.nodup_append.mp (nodup_append_of_notMem hm hkey)

-- Nothing is left out of a map that has no key twice.
theorem nil_fill {m : Keyed α} (h : Distinct m) : fill [] m = m := by
  induction m using List.reverseRecOn with
  | nil => rfl
  | append_singleton m entry ih =>
    obtain ⟨key, a⟩ := entry
    obtain ⟨hm, hkey⟩ := (distinct_concat_iff m key a).mp h
    rw [fill_concat, ih hm, putAbsent, if_neg (mt (has_iff_mem_keys m key).mp hkey)]

theorem update_of_notMem {m : Keyed α} {key : String} (h : key ∉ m.keys) (fresh : α) (f : α → α) :
    update key fresh f m = m ++ [(key, f fresh)] := by
  induction m with
  | nil => rfl
  | cons entry rest ih =>
    obtain ⟨k, a⟩ := entry
    have hne : k ≠ key := fun heq => h (heq ▸ List.mem_cons_self)
    have hrest : key ∉ keys rest := fun hmem => h (List.mem_cons_of_mem k hmem)
    rw [update, if_neg hne, ih hrest, List.cons_append]

theorem ofEntries_concat (entries : List (String × α)) (key : String) (a : α) :
    ofEntries (entries ++ [(key, a)]) = (ofEntries entries).put key a := by
  simp only [ofEntries, List.foldl_append, List.foldl_cons, List.foldl_nil]

-- A map is rebuilt from its own entries.
theorem ofEntries_of_distinct {m : Keyed α} (h : Distinct m) : ofEntries m = m := by
  induction m using List.reverseRecOn with
  | nil => rfl
  | append_singleton m entry ih =>
    obtain ⟨key, a⟩ := entry
    obtain ⟨hm, hkey⟩ := (distinct_concat_iff m key a).mp h
    rw [ofEntries_concat, ih hm]
    exact update_of_notMem hkey a _

theorem mem_keys_fill (m other : Keyed α) (key : String) :
    key ∈ keys (m.fill other) ↔ key ∈ keys m ∨ key ∈ keys other := by
  simp only [← has_iff_mem_keys, has, lookup_fill, Option.isSome_or, Bool.or_eq_true]

-- Of several maps the first that has a key decides on it.
theorem lookup_foldl_fill (m : Keyed α) (others : List (Keyed α)) (key : String) :
    (others.foldl fill m).lookup key =
      (m.lookup key).or (others.findSome? (·.lookup key)) := by
  induction others generalizing m with
  | nil => exact Option.or_none.symm
  | cons other others ih =>
    rw [List.foldl_cons, ih, lookup_fill, List.findSome?_cons, Option.or_assoc]
    cases other.lookup key <;> rfl

theorem keys_foldl_fill {m : Keyed α} (h : Distinct m) (others : List (Keyed α)) :
    keys (others.foldl fill m) = (keys m ++ others.flatMap keys).eraseDups := by
  induction others generalizing m with
  | nil =>
    rw [List.flatMap_nil, List.append_nil]
    exact (eraseDups_of_nodup h).symm
  | cons other others ih =>
    rw [List.foldl_cons, ih (distinct_fill h other), keys_fill h, eraseDups_eraseDups_append,
      List.append_assoc, List.flatMap_cons]

theorem mem_of_lookup {m : Keyed α} {key : String} {a : α} (h : m.lookup key = some a) :
    (key, a) ∈ m := by
  obtain ⟨before, after, rfl, -⟩ := List.lookup_eq_some_iff.mp h
  exact List.mem_append_right before List.mem_cons_self

theorem lookup_of_mem {m : Keyed α} (h : Distinct m) {key : String} {a : α} (hmem : (key, a) ∈ m) :
    m.lookup key = some a := by
  induction m with
  | nil => exact nomatch hmem
  | cons entry rest ih =>
    obtain ⟨k, b⟩ := entry
    obtain ⟨hk, hrest⟩ := List.nodup_cons.mp h
    rw [lookup_cons]
    rcases List.mem_cons.mp hmem with heq | hin
    · obtain ⟨rfl, rfl⟩ := Prod.mk.inj heq
      exact if_pos rfl
    · have hne : key ≠ k := by
        rintro rfl
        exact hk (List.mem_map.mpr ⟨(key, a), hin, rfl⟩)
      rw [if_neg hne]
      exact ih hrest hin

section Values

variable {P : α → Prop}

theorem forall_update {m : Keyed α} (hm : ∀ entry ∈ m, P entry.2) (key : String) {fresh : α}
    {f : α → α} (hfresh : P fresh) (hf : ∀ a, P a → P (f a)) :
    ∀ entry ∈ update key fresh f m, P entry.2 := by
  induction m with
  | nil => simpa [update] using hf fresh hfresh
  | cons entry rest ih =>
    obtain ⟨hentry, hrest⟩ := List.forall_mem_cons.mp hm
    rw [update]
    split
    · exact List.forall_mem_cons.mpr ⟨hf _ hentry, hrest⟩
    · exact List.forall_mem_cons.mpr ⟨hentry, ih hrest⟩

theorem forall_fill {m other : Keyed α} (hm : ∀ entry ∈ m, P entry.2)
    (hother : ∀ entry ∈ other, P entry.2) : ∀ entry ∈ m.fill other, P entry.2 := by
  induction other using List.reverseRecOn with
  | nil => exact hm
  | append_singleton other entry ih =>
    obtain ⟨hother, hentry⟩ := List.forall_mem_append.mp hother
    rw [fill_concat, putAbsent]
    split
    · exact ih hother
    · exact List.forall_mem_append.mpr ⟨ih hother, hentry⟩

end Values

end Keyed

end LayeredAnnotations
