import LayeredAnnotations.Proofs.Record.Scan
import Mathlib.Data.List.TakeWhile

namespace LayeredAnnotations

-- The annotations in a value, or in the array that it is.
def Value.nestedAmong (v? : Option Value) : List Occurrence :=
  ((v?.map Value.elements).getD []).filterMap Value.scalarNested?

namespace Finding

-- The value that a finding gives to a container as one of its own members.
def ownValue? (container : String) : Finding → Option Value
  | .present _ o => if o.name = container then o.members.lookup Occurrence.soleMember else none
  | .carried _ _ o => if o.name = container then o.members.lookup Occurrence.soleMember else none
  | _ => none

-- The occurrence that it groups there.
def groupedIn? (container : String) : Finding → Option Occurrence
  | .repeated _ container' o => if container' = container then some o else none
  | _ => none

theorem ownValue?_eq_none_of_groupedIn? {container : String} {f : Finding} {o : Occurrence}
    (h : f.groupedIn? container = some o) : f.ownValue? container = none := by
  cases f with
  | repeated origin container' o' => rfl
  | _ => exact nomatch h

end Finding

namespace Record

-- The value that a container has of its own: the first that is given to it before an occurrence is
-- grouped there.
def ownValueOf? (findings : List Finding) (container : String) : Option Value :=
  (findings.takeWhile fun f => (f.groupedIn? container).isNone).findSome? (·.ownValue? container)

-- The annotations that a container holds: those in the value that it has of its own, then the
-- occurrences that are grouped there, in the order in which they were found.
def contentsOf (findings : List Finding) (container : String) : List Occurrence :=
  Value.nestedAmong (ownValueOf? findings container) ++ findings.filterMap (·.groupedIn? container)

theorem group_eq (o : Occurrence) (v : Value) :
    group o v = .array (v.elements ++ [.nested o]) := by
  cases v <;> rfl

-- A grouped occurrence is put behind what is there. A value of its own only counts where there is
-- none yet.
theorem lookup_soleMember_step (r : Record) (f : Finding) (container : String) :
    ((r.step f).entryOf container).members.lookup Occurrence.soleMember =
      let value? := (r.entryOf container).members.lookup Occurrence.soleMember
      match f.groupedIn? container with
      | some o => some (.array ((value?.map Value.elements).getD [] ++ [.nested o]))
      | none => value?.or (f.ownValue? container) := by
  rw [entryOf_step]
  cases f with
  | present origin o =>
    simp only [Finding.target?, Option.some.injEq, Finding.groupedIn?, Finding.ownValue?]
    split
    · exact Keyed.lookup_fill _ _ _
    · exact Option.or_none.symm
  | carried origin carrier o =>
    simp only [Finding.target?, Option.some.injEq, Finding.groupedIn?, Finding.ownValue?]
    split
    · exact Keyed.lookup_fill _ _ _
    · exact Option.or_none.symm
  | repeated origin container' o =>
    simp only [Finding.target?, Option.some.injEq, Finding.groupedIn?, Finding.ownValue?]
    split
    · rw [Finding.extend, Keyed.lookup_update, if_pos rfl, group_eq]
      cases (r.entryOf container).members.lookup Occurrence.soleMember <;> rfl
    · exact Option.or_none.symm
  | defaults name values => exact Option.or_none.symm

theorem filterMap_groupedIn?_eq_nil_iff {findings : List Finding} {container : String} :
    findings.filterMap (·.groupedIn? container) = [] ↔
      ∀ f ∈ findings, (f.groupedIn? container).isNone := by
  simp only [List.filterMap_eq_nil_iff, Option.isNone_iff_eq_none]

theorem ownValueOf?_concat (findings : List Finding) (f : Finding) (container : String) :
    ownValueOf? (findings ++ [f]) container =
      if findings.filterMap (·.groupedIn? container) = [] then
        (ownValueOf? findings container).or (f.ownValue? container)
      else ownValueOf? findings container := by
  rw [ownValueOf?, ownValueOf?]
  split
  · next hnone =>
    have hall := filterMap_groupedIn?_eq_nil_iff.mp hnone
    rw [List.takeWhile_append_of_pos hall, List.findSome?_append, List.takeWhile_eq_self_iff.mpr hall]
    cases hf : f.groupedIn? container with
    | none => rw [List.takeWhile_cons_of_pos (by rw [hf]; rfl), List.takeWhile_nil,
        List.findSome?_singleton]
    | some o => rw [List.takeWhile_cons_of_neg (by simp [hf]), List.findSome?_nil,
        Finding.ownValue?_eq_none_of_groupedIn? hf]
  · next hsome =>
    have hlength : (findings.takeWhile fun f => (f.groupedIn? container).isNone).length ≠
        findings.length := by
      intro hlength
      have hself := (List.takeWhile_prefix fun f : Finding => (f.groupedIn? container).isNone).eq_of_length
        hlength
      exact hsome (filterMap_groupedIn?_eq_nil_iff.mpr (List.takeWhile_eq_self_iff.mp hself))
    rw [List.takeWhile_append, if_neg hlength]

-- What becomes of the value of a container. As long as nothing is grouped there it is the one that
-- the container has of its own, and then it is an array that begins with that.
theorem lookup_soleMember_scan (findings : List Finding) (container : String) :
    ((scan findings).entryOf container).members.lookup Occurrence.soleMember =
      if findings.filterMap (·.groupedIn? container) = [] then ownValueOf? findings container
      else some (.array (((ownValueOf? findings container).map Value.elements).getD [] ++
        (findings.filterMap (·.groupedIn? container)).map .nested)) := by
  induction findings using List.reverseRecOn with
  | nil => rfl
  | append_singleton findings f ih =>
    rw [scan_concat, lookup_soleMember_step, ih, ownValueOf?_concat, List.filterMap_append]
    cases hf : f.groupedIn? container with
    | some o =>
      have hne : findings.filterMap (·.groupedIn? container) ++ [o] ≠ [] := by simp
      rw [Finding.ownValue?_eq_none_of_groupedIn? hf, Option.or_none, ite_self,
        List.filterMap_cons_some hf, List.filterMap_nil, if_neg hne]
      by_cases hnone : findings.filterMap (·.groupedIn? container) = []
      · simp [hnone]
      · simp [hnone, Value.elements]
    | none =>
      rw [List.filterMap_cons_none hf, List.filterMap_nil, List.append_nil]
      by_cases hnone : findings.filterMap (·.groupedIn? container) = []
      · simp only [hnone, if_true]
      · simp only [hnone, if_false, Option.some_or]

theorem nestedAmong_scan (findings : List Finding) (container : String) :
    Value.nestedAmong (((scan findings).entryOf container).members.lookup Occurrence.soleMember) =
      contentsOf findings container := by
  have hnested (os : List Occurrence) : (os.map Value.nested).filterMap Value.scalarNested? = os := by
    rw [List.filterMap_map]
    exact List.filterMap_some
  rw [lookup_soleMember_scan, contentsOf]
  split
  · next hnone => rw [hnone, List.append_nil]
  · rw [Value.nestedAmong, Value.nestedAmong, Option.map_some, Option.getD_some, Value.elements,
      List.filterMap_append, hnested]

end Record

end LayeredAnnotations
