import LayeredAnnotations.Proofs.Level.Views
import Mathlib.Data.List.Basic

namespace LayeredAnnotations

namespace Value

variable (α : Type) [OfValue α]

-- Read as a list, a value that is no array is its own only element, and one that cannot be read is
-- left out like any other element.
theorem getD_read?_list (v : Value) :
    (v.read? (List α)).getD [] = v.elements.filterMap (Value.read? α) := by
  have hscalar (v : Value) : ((v.read? α).map ([·])).getD [] = [v].filterMap (Value.read? α) := by
    cases h : v.read? α with
    | none => rw [List.filterMap_cons_none h, List.filterMap_nil, Option.map_none, Option.getD_none]
    | some a => rw [List.filterMap_cons_some h, List.filterMap_nil, Option.map_some, Option.getD_some]
  cases v with
  | array items => rfl
  | _ => exact hscalar _

theorem filterMap_acceptedElements (v? : Option Value) :
    (acceptedElements (Value.readable α) v?).filterMap (Value.read? α) =
      ((v?.map Value.elements).getD []).filterMap (Value.read? α) := by
  cases v? with
  | none => rfl
  | some v =>
    change (v.elements.filter (Value.readable α)).filterMap (Value.read? α) = _
    rw [List.filterMap_filter]
    refine List.filterMap_congr fun w _ => ?_
    cases h : w.read? α with
    | none => rw [ite_self]
    | some a => rw [Value.readable, h, Option.isSome_some, if_pos rfl]

end Value

-- The elements of a member that can be read.
def Occurrence.readElements (α : Type) [OfValue α] (o? : Option Occurrence) (member : String) :
    List α :=
  (((o?.bind (·.get? member)).map Value.elements).getD []).filterMap (Value.read? α)

theorem Occurrence.getD_read?_list (α : Type) [OfValue α] (o? : Option Occurrence)
    (member : String) : (o?.bind (·.read? (List α) member)).getD [] = readElements α o? member := by
  have hread : o?.bind (·.read? (List α) member) =
      (o?.bind (·.get? member)).bind (Value.read? (List α)) := by
    rw [Option.bind_assoc]
    rfl
  rw [hread, readElements]
  cases o?.bind (·.get? member) with
  | none => rfl
  | some v => exact Value.getD_read?_list α v

-- What agrees in one case and is nothing otherwise agrees in that case, or if nothing is right.
theorem eq_iff_or_eq_nothing {β : Type} {p : Prop} {a b nothing : β} (hpos : p → a = b)
    (hneg : ¬ p → a = nothing) : a = b ↔ p ∨ b = nothing := by
  by_cases hp : p
  · exact iff_of_true (hpos hp) (Or.inl hp)
  · rw [hneg hp, or_iff_right hp]
    exact eq_comm

namespace Level

section Recorded

variable (r : Record) (name member : String)

theorem read?_recorded (α : Type) [OfValue α] :
    ((recorded r).answers.read? α none name member).value =
      (r.raw? name member).bind (Value.read? α) := by
  rw [value_read?, scalar?_recorded, Value.filter_readable_bind]

theorem readAll_recorded (α : Type) [OfValue α] :
    ((recorded r).answers.readAll α none name member).value =
      (((r.raw? name member).map Value.elements).getD []).filterMap (Value.read? α) := by
  rw [value_readAll, array_recorded, Value.filterMap_acceptedElements]

theorem isExplicit_recorded :
    (recorded r).answers.ask (.isExplicit name member) =
      (r.entries.lookup name).any (·.members.has member) := by
  simp only [answers, Record.answers]
  cases r.entries.lookup name with
  | none => rfl
  | some entry => rfl

end Recorded

-- Lookups of a member, and whether it is given explicitly, are answered from the entry that an
-- annotation has of its own. The occurrence that is found for it is the same one, but without an
-- entry it is the first in the container of the annotation. So they agree if something was found
-- that adds to the annotation itself, and otherwise only about members that this occurrence lacks.
theorem lookups_eq_found_iff (findings : List Finding) (name member : String) :
    let l := recorded (.ofFindings findings)
    let found? := l.answers.ask (.find? name)
    let own := ∃ f ∈ findings, f.target? = some name
    (l.answers.ask (.isExplicit name member) = found?.any (·.hasMember member) ↔
      own ∨ found?.any (·.hasMember member) = false) ∧
    (l.value? name member = found?.bind (·.get? member) ↔
      own ∨ found?.bind (·.get? member) = none) ∧
    (∀ (α : Type) [OfValue α],
      (l.answers.read? α none name member).value = found?.bind (·.read? α member) ↔
        own ∨ found?.bind (·.read? α member) = none) ∧
    (∀ (α : Type) [OfValue α],
      (found?.bind (·.read? (List α) member)).getD [] = Occurrence.readElements α found? member ∧
        ((l.answers.readAll α none name member).value = Occurrence.readElements α found? member ↔
          own ∨ Occurrence.readElements α found? member = [])) := by
  intro l found? own
  let r := Record.ofFindings findings
  have hown : own ↔ (r.entries.lookup name).isSome :=
    (Record.isSome_lookup_entries_scan findings name).symm
  have hsame (h : own) : r.raw? name member = found?.bind (·.get? member) :=
    Record.raw?_of_isSome (hown.mp h) member
  have hentry (h : ¬ own) : r.entries.lookup name = none :=
    Option.not_isSome_iff_eq_none.mp (mt hown.mpr h)
  have hnothing (h : ¬ own) : r.raw? name member = none := Record.raw?_of_eq_none (hentry h) member
  refine ⟨?_, ?_, ?_, ?_⟩
  · apply eq_iff_or_eq_nothing
    · intro h
      obtain ⟨entry, hlookup⟩ := Option.isSome_iff_exists.mp (hown.mp h)
      have hfound : found? = some (r.occurrence name entry) := by
        change r.find? name = _
        rw [Record.find?, hlookup]
        rfl
      rw [isExplicit_recorded, hlookup, hfound]
      rfl
    · intro h
      rw [isExplicit_recorded, hentry h]
      rfl
  · rw [value?_recorded]
    exact eq_iff_or_eq_nothing hsame hnothing
  · intro α _
    rw [read?_recorded]
    apply eq_iff_or_eq_nothing
    · intro h
      rw [hsame h, Option.bind_assoc]
      rfl
    · intro h
      rw [hnothing h, Option.bind_none]
  · intro α _
    refine ⟨Occurrence.getD_read?_list α found? member, ?_⟩
    rw [readAll_recorded]
    apply eq_iff_or_eq_nothing
    · intro h
      rw [hsame h]
      rfl
    · intro h
      rw [hnothing h]
      rfl

-- The only occurrence of the annotation is in its container, where lookups do not go.
theorem not_forall_lookups_eq_found :
    ¬ ∀ (findings : List Finding) (name member : String),
      let l := recorded (.ofFindings findings)
      let found? := l.answers.ask (.find? name)
      l.answers.ask (.isExplicit name member) = found?.any (·.hasMember member) ∧
        l.value? name member = found?.bind (·.get? member) ∧
        (∀ (α : Type) [OfValue α],
          (l.answers.read? α none name member).value = found?.bind (·.read? α member)) ∧
        ∀ (α : Type) [OfValue α], (l.answers.readAll α none name member).value =
          (found?.bind (·.read? (List α) member)).getD [] := by
  intro h
  obtain ⟨hexplicit, -⟩ := h
    [.repeated .declared "Requirements" ⟨"Requires", [("property", .string "a")], []⟩]
    "Requires" "property"
  exact absurd hexplicit (by decide)

end Level

end LayeredAnnotations
