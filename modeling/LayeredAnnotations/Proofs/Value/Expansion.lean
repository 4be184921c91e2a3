import LayeredAnnotations.Placeholder.Expansion
import LayeredAnnotations.Proofs.WellFormed
import Mathlib.Data.List.Forall2

namespace LayeredAnnotations

namespace Value

theorem hasPlaceholder_array (items : List Value) :
    (array items).hasPlaceholder = items.any hasPlaceholder :=
  hasStringIn_eq_any containsPlaceholder items

theorem expandItems_eq_ok_iff {resolve : String → Except Failure String} {vs ws : List Value} :
    expandItems resolve vs = .ok ws ↔
      List.Forall₂ (fun v w => v.expandWith resolve = .ok w) vs ws := by
  induction vs generalizing ws with
  | nil => cases ws <;> simp [expandItems]
  | cons v rest ih =>
    rw [expandItems]
    cases hv : v.expandWith resolve with
    | error failure => cases ws <;> simp [bind, Except.bind, hv]
    | ok w =>
      cases hrest : expandItems resolve rest with
      | error failure => cases ws <;> simp [bind, Except.bind, ← ih, hrest]
      | ok others => cases ws <;> simp [bind, Except.bind, pure, Except.pure, ← ih, hrest, hv]

theorem expandWith_of_plain (resolve : String → Except Failure String) {v : Value}
    (h : v.hasPlaceholder = false) : v.expandWith resolve = .ok v := by
  induction v with
  | string s => exact if_neg (ne_true_of_eq_false h)
  | array items ih =>
    rw [hasPlaceholder_array, List.any_eq_false] at h
    have hitems : expandItems resolve items = .ok items := by
      rw [expandItems_eq_ok_iff, List.forall₂_same]
      exact fun v hv => ih v hv (eq_false_of_ne_true (h v hv))
    rw [expandWith, hitems]
    rfl
  -- nested annotations are not expanded, whatever is in them
  | _ => rfl

theorem expand_of_plain (resolver : Resolver) (lenient : Bool) {v : Value}
    (h : v.hasPlaceholder = false) : v.expand resolver lenient = .ok v :=
  expandWith_of_plain _ h

end Value

end LayeredAnnotations
