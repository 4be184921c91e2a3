import LayeredAnnotations.Proofs.Level.Built
import LayeredAnnotations.Proofs.Level.Lookup

namespace LayeredAnnotations

-- The questions about what is declared.
inductive Question.AboutDeclared : {α : Type} → Question α → Prop
  | hasDeclared (name : String) : AboutDeclared (.hasDeclared name)
  | knowsDeclared (name : String) : AboutDeclared (.knowsDeclared name)
  | declaredNames : AboutDeclared .declaredNames
  | declaredCarriers (name : String) : AboutDeclared (.declaredCarriers name)
  | findDeclared? (name : String) : AboutDeclared (.findDeclared? name)
  | declaredOccurrences (name : String) : AboutDeclared (.declaredOccurrences name)
  | allDeclared : AboutDeclared .allDeclared

namespace Level

-- The record of the element itself, whatever is around it.
def element : Level → Record
  | .empty => .empty
  | .recorded r => r
  | .expanding _ inner => inner.element
  | .layered declared _ => declared.element
  | .forwarding inner => inner.element
termination_by structural l => l

mutual

-- The records that a level is made of, that of the element first.
def records : Level → List Record
  | .empty => [.empty]
  | .recorded r => [r]
  | .expanding _ inner => inner.records
  | .layered declared ancestors => declared.records ++ recordsAmong ancestors
  | .forwarding inner => inner.records
termination_by structural l => l

def recordsAmong : List Level → List Record
  | [] => []
  | l :: rest => l.records ++ recordsAmong rest
termination_by structural ls => ls

end

theorem recordsAmong_eq_flatMap (levels : List Level) :
    recordsAmong levels = levels.flatMap records := by
  induction levels with
  | nil => rfl
  | cons l rest ih => rw [recordsAmong, List.flatMap_cons, ih]

theorem records_layered (declared : Level) (ancestors : List Level) :
    (layered declared ancestors).records = (declared :: ancestors).flatMap records := by
  rw [records, recordsAmong_eq_flatMap, List.flatMap_cons]

theorem element_mem_records (l : Level) : l.element ∈ l.records := by
  induction l with
  | empty => exact List.mem_singleton_self _
  | recorded r => exact List.mem_singleton_self r
  | expanding x inner ih => exact ih
  | layered declared ancestors ih =>
    exact List.mem_append_left _ (ih declared List.mem_cons_self)
  | forwarding inner ih => exact ih

-- What is declared is what the element itself declares.
theorem ask_element {α : Type} {q : Question α} (hq : q.AboutDeclared) (l : Level) :
    l.answers.ask q = l.element.answers.ask q := by
  induction l generalizing α with
  | empty => rfl
  | recorded r => rfl
  | expanding x inner ih =>
    have hinner := ih hq
    cases hq <;> exact hinner
  | layered declared ancestors ih =>
    have hdeclared := ih declared List.mem_cons_self hq
    rw [answers_layered]
    cases hq <;> exact hdeclared
  | forwarding inner ih =>
    cases hq with
    | allDeclared =>
      -- a host finds out by itself from the names
      change (inner.answers.ask .declaredNames).filterMap
        (fun name => inner.answers.ask (.findDeclared? name)) = _
      simp only [ih .declaredNames, ih (.findDeclared? _)]
      rfl
    | hasDeclared name => exact ih (.hasDeclared name)
    | knowsDeclared name => exact ih (.knowsDeclared name)
    | declaredNames => exact ih .declaredNames
    | declaredCarriers name => exact ih (.declaredCarriers name)
    | findDeclared? name => exact ih (.findDeclared? name)
    | declaredOccurrences name => exact ih (.declaredOccurrences name)

namespace Built

theorem exists_element_eq {l : Level} (h : l.Built) :
    ∃ findings, (∀ f ∈ findings, f.WellFormed) ∧ l.element = .ofFindings findings := by
  induction h with
  | empty => exact ⟨[], List.forall_mem_nil _, rfl⟩
  | recorded findings h => exact ⟨findings, h, rfl⟩
  | expanding x h ih => exact ih
  | @layered declared ancestors _ ih => exact ih declared List.mem_cons_self

-- What an environment leaves as it is, and a layered level has if one of its levels has it, a level
-- has if one of its records does.
theorem iff_exists_record {P : Answers → Prop}
    (hexpanding : ∀ (x : Expander) inner, P (x.answers inner) ↔ P inner)
    (hlayered : ∀ declared ancestors,
      P (.layered declared ancestors) ↔ ∃ a ∈ declared :: ancestors, P a)
    {l : Level} (h : l.Built) : P l.answers ↔ ∃ r ∈ l.records, P r.answers := by
  have hsingle (r : Record) : P r.answers ↔ ∃ r' ∈ [r], P r'.answers := by
    simp only [List.mem_singleton, exists_eq_left]
  induction h with
  | empty => exact hsingle .empty
  | recorded findings _ => exact hsingle (.ofFindings findings)
  | expanding x _ ih => exact (hexpanding x _).trans ih
  | @layered declared ancestors _ ih =>
    rw [answers_layered, hlayered, ← List.map_cons, records_layered]
    simp only [List.mem_map, List.mem_flatMap]
    constructor
    · rintro ⟨a, ⟨l, hl, rfl⟩, ha⟩
      obtain ⟨r, hr, hP⟩ := (ih l hl).mp ha
      exact ⟨r, ⟨l, hl, hr⟩, hP⟩
    · rintro ⟨r, ⟨l, hl, hr⟩, hP⟩
      exact ⟨l.answers, ⟨l, hl, rfl⟩, (ih l hl).mpr ⟨r, hr, hP⟩⟩

end Built

end Level

end LayeredAnnotations
