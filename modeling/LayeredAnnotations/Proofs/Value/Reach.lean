import LayeredAnnotations.Proofs.Placeholder.Cutting
import LayeredAnnotations.Proofs.Value.Expansion

namespace LayeredAnnotations

namespace Template

-- Whether an expression is written somewhere in a text.
def HasExpression (cs : List Char) : Prop := ∃ body, '}' ∉ body ∧ braced body <:+: cs

theorem containsPlaceholder_iff_hasExpression {s : String} :
    containsPlaceholder s ↔ HasExpression s.toList := by
  rw [containsPlaceholder_eq]
  cases h : firstHole? s.toList with
  | none =>
    have hnone : ¬ HasExpression s.toList := by
      rintro ⟨body, -, before, after, heq⟩
      have hcs : s.toList = before ++ '$' :: '{' :: (body ++ '}' :: after) := by
        simp [← heq, braced]
      exact firstHole?_eq_none_iff.mp h _ _ hcs (by simp)
    simp [hnone]
  | some hole =>
    obtain ⟨before, body, after⟩ := hole
    obtain ⟨hcs, hbody, -⟩ := firstHole?_eq_some_iff.mp h
    have hsome : HasExpression s.toList := ⟨body, hbody, before, after, by simp [hcs, braced]⟩
    simp [hsome]

end Template

namespace Value

-- The strings in a value, also inside arrays and the explicit members of nested annotations. What a
-- nested annotation has by default is not in it.
inductive Reaches : Value → String → Prop
  | string (s : String) : Reaches (.string s) s
  | array {items : List Value} {v : Value} {s : String} (hv : v ∈ items) (hs : Reaches v s) :
      Reaches (.array items) s
  | nested {o : Occurrence} {entry : String × Value} {s : String} (hentry : entry ∈ o.members)
      (hs : Reaches entry.2 s) : Reaches (.nested o) s

theorem reaches_string_iff {s text : String} : (string s).Reaches text ↔ text = s := by
  constructor
  · rintro ⟨⟩
    rfl
  · rintro rfl
    exact .string text

theorem reaches_array_iff {items : List Value} {text : String} :
    (array items).Reaches text ↔ ∃ v ∈ items, v.Reaches text := by
  constructor
  · rintro (_ | ⟨hv, hs⟩)
    exact ⟨_, hv, hs⟩
  · rintro ⟨v, hv, hs⟩
    exact .array hv hs

theorem reaches_nested_iff {o : Occurrence} {text : String} :
    (nested o).Reaches text ↔ ∃ entry ∈ o.members, entry.2.Reaches text := by
  constructor
  · rintro (_ | _ | ⟨hentry, hs⟩)
    exact ⟨_, hentry, hs⟩
  · rintro ⟨entry, hentry, hs⟩
    exact .nested hentry hs

theorem hasString_nested (p : String → Bool) (o : Occurrence) :
    (nested o).hasString p = o.members.any fun entry => entry.2.hasString p := by
  obtain ⟨name, members, defaults⟩ := o
  exact hasStringAmong_eq_any p members

-- What is found in one element, or member, is found in all of them together.
theorem any_iff_exists {β : Type} {parts : List β} {found : β → Bool} {holds : β → String → Prop}
    {p : String → Bool} (h : ∀ part ∈ parts, found part ↔ ∃ text, holds part text ∧ p text) :
    parts.any found ↔ ∃ text, (∃ part ∈ parts, holds part text) ∧ p text := by
  rw [List.any_eq_true]
  constructor
  · rintro ⟨part, hpart, hfound⟩
    obtain ⟨text, htext, hp⟩ := (h part hpart).mp hfound
    exact ⟨text, ⟨part, hpart, htext⟩, hp⟩
  · rintro ⟨text, ⟨part, hpart, htext⟩, hp⟩
    exact ⟨part, hpart, (h part hpart).mpr ⟨text, htext, hp⟩⟩

theorem hasString_iff (p : String → Bool) (v : Value) :
    v.hasString p ↔ ∃ text, v.Reaches text ∧ p text := by
  induction v with
  | string s => simp only [hasString, reaches_string_iff, exists_eq_left]
  | array items ih =>
    simp only [reaches_array_iff]
    rw [hasString, hasStringIn_eq_any]
    exact any_iff_exists ih
  | nested o ih =>
    simp only [reaches_nested_iff]
    rw [hasString_nested]
    exact any_iff_exists ih
  | _ =>
    constructor
    · exact nofun
    · rintro ⟨text, ⟨⟩, -⟩

theorem hasPlaceholder_iff (v : Value) :
    v.hasPlaceholder ↔ ∃ text, v.Reaches text ∧ Template.HasExpression text.toList := by
  simp only [hasPlaceholder, hasString_iff, Template.containsPlaceholder_iff_hasExpression]

end Value

end LayeredAnnotations
