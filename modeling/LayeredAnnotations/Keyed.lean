namespace LayeredAnnotations

-- A finite map that remembers the order in which its keys were first put. The first entry of a
-- key is the one that counts; every operation below keeps keys distinct.
abbrev Keyed (α : Type) := List (String × α)

namespace Keyed

variable {α : Type}

def keys (m : Keyed α) : List String := m.map (·.1)

def Distinct (m : Keyed α) : Prop := m.keys.Nodup

instance (m : Keyed α) : Decidable m.Distinct := inferInstanceAs (Decidable m.keys.Nodup)

def has (m : Keyed α) (key : String) : Bool := (m.lookup key).isSome

-- Passes the entry of `key` through `f`; a key without one is appended with `f fresh`.
def update (key : String) (fresh : α) (f : α → α) : Keyed α → Keyed α
  | [] => [(key, f fresh)]
  | (k, a) :: rest => if k = key then (k, f a) :: rest else (k, a) :: update key fresh f rest

-- A key that is already there keeps its place and takes the new value.
def put (m : Keyed α) (key : String) (a : α) : Keyed α := update key a (fun _ => a) m

-- A key that is already there keeps its value too.
def putAbsent (m : Keyed α) (key : String) (a : α) : Keyed α :=
  if m.has key then m else m ++ [(key, a)]

-- The map after putting the entries one after another.
def ofEntries (entries : List (String × α)) : Keyed α :=
  entries.foldl (fun m (k, a) => m.put k a) []

-- Fills in what `m` lacks, in the order of `other`.
def fill (m other : Keyed α) : Keyed α :=
  other.foldl (fun m (k, a) => m.putAbsent k a) m

theorem has_iff_mem_keys (m : Keyed α) (key : String) : m.has key ↔ key ∈ m.keys := by
  simp [has, keys, List.lookup_isSome_iff]

theorem lookup_cons (k k' : String) (a : α) (m : Keyed α) :
    List.lookup k ((k', a) :: m) = if k = k' then some a else m.lookup k := by
  by_cases h : k = k'
  · simp [h]
  · simp [List.lookup_cons, h, beq_false_of_ne h]

theorem lookup_update (key : String) (fresh : α) (f : α → α) (m : Keyed α) (k : String) :
    (update key fresh f m).lookup k =
      if k = key then some (f ((m.lookup key).getD fresh)) else m.lookup k := by
  induction m with
  | nil => by_cases h : k = key <;> simp [update, lookup_cons, h]
  | cons entry rest ih =>
    obtain ⟨k', a⟩ := entry
    rw [update]
    by_cases hk' : k' = key
    · subst hk'
      by_cases h : k = k' <;> simp [lookup_cons, h]
    · by_cases h : k = key
      · subst h
        simp [lookup_cons, hk', Ne.symm hk', ih]
      · by_cases hkk : k = k' <;> simp [lookup_cons, hk', h, hkk, ih]

-- Only a new key changes the list of keys.
theorem keys_update (key : String) (fresh : α) (f : α → α) (m : Keyed α) :
    keys (update key fresh f m) = if key ∈ keys m then keys m else keys m ++ [key] := by
  induction m with
  | nil => simp [update, keys]
  | cons entry rest ih =>
    obtain ⟨k, a⟩ := entry
    rw [update]
    by_cases hk : k = key
    · simp [keys, hk]
    · by_cases hmem : key ∈ keys rest <;> simp_all [keys, Ne.symm hk]

theorem nodup_append_of_notMem {ks : List String} {k : String} (h : ks.Nodup) (hk : k ∉ ks) :
    (ks ++ [k]).Nodup := by
  rw [List.nodup_append]
  refine ⟨h, by simp, ?_⟩
  intro a ha b hb heq
  rw [List.mem_singleton] at hb
  exact hk (hb ▸ heq ▸ ha)

theorem distinct_update (key : String) (fresh : α) (f : α → α) {m : Keyed α} (h : Distinct m) :
    Distinct (update key fresh f m) := by
  rw [Distinct, keys_update]
  split
  · exact h
  · exact nodup_append_of_notMem h ‹_›

theorem lookup_putAbsent (m : Keyed α) (key : String) (a : α) (k : String) :
    (m.putAbsent key a).lookup k = (m.lookup k).or (if k = key then some a else none) := by
  rw [putAbsent]
  split
  · next h =>
    by_cases hk : k = key
    · subst hk
      obtain ⟨b, hb⟩ := Option.isSome_iff_exists.mp h
      simp [hb]
    · simp [hk]
  · by_cases hk : k = key <;> simp [List.lookup_append, lookup_cons, hk]

theorem keys_putAbsent (m : Keyed α) (key : String) (a : α) :
    keys (m.putAbsent key a) = if key ∈ keys m then keys m else keys m ++ [key] := by
  rw [putAbsent]
  by_cases h : key ∈ keys m
  · rw [if_pos ((has_iff_mem_keys m key).mpr h), if_pos h]
  · rw [if_neg (mt (has_iff_mem_keys m key).mp h), if_neg h]
    simp [keys]

theorem distinct_putAbsent {m : Keyed α} (h : Distinct m) (key : String) (a : α) :
    Distinct (m.putAbsent key a) := by
  rw [Distinct, keys_putAbsent]
  split
  · exact h
  · exact nodup_append_of_notMem h ‹_›

theorem distinct_ofEntries (entries : List (String × α)) : Distinct (ofEntries entries) := by
  have folded (m : Keyed α) (h : Distinct m) :
      Distinct (entries.foldl (fun m (k, a) => m.put k a) m) := by
    induction entries generalizing m with
    | nil => exact h
    | cons entry rest ih => exact ih _ (distinct_update entry.1 entry.2 _ h)
  exact folded [] List.nodup_nil

-- What `m` holds comes first.
theorem lookup_fill (m other : Keyed α) (k : String) :
    (m.fill other).lookup k = (m.lookup k).or (other.lookup k) := by
  rw [fill]
  induction other generalizing m with
  | nil => simp
  | cons entry rest ih =>
    obtain ⟨k', a⟩ := entry
    rw [List.foldl_cons, ih, lookup_putAbsent, Option.or_assoc]
    by_cases hk : k = k' <;> simp [lookup_cons, hk]

theorem distinct_fill {m : Keyed α} (h : Distinct m) (other : Keyed α) :
    Distinct (m.fill other) := by
  rw [fill]
  induction other generalizing m with
  | nil => exact h
  | cons entry rest ih => exact ih (distinct_putAbsent h entry.1 entry.2)

end Keyed

end LayeredAnnotations
