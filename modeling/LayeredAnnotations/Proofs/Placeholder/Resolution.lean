import LayeredAnnotations.Placeholder.Resolver
import LayeredAnnotations.Proofs.Placeholder.Cutting
import Mathlib.Data.List.Basic
import Mathlib.Data.List.TakeWhile

namespace LayeredAnnotations

namespace Template

theorem render_eq (t : Template) (f : List Char → String) :
    t.render f = String.ofList (t.interpolate fun body => (f body).toList) := by
  rw [← String.toList_inj, toList_render, String.toList_ofList, interpolate]

-- The expressions in a text, without their braces.
def expressions (t : Template) : List (List Char) := t.holes.map (·.2)

-- Only what is put in the place of the expressions that are there matters.
theorem render_congr {t : Template} {f g : List Char → String}
    (h : ∀ body ∈ t.expressions, f body = g body) : t.render f = t.render g := by
  rw [render_eq, render_eq, interpolate, interpolate]
  congr 2
  apply List.flatMap_congr
  intro hole hhole
  exact congrArg (fun s => hole.1 ++ s.toList) (h hole.2 (List.mem_map_of_mem hhole))

theorem Cuts.notMem_expression {cs : List Char} {t : Template} (h : Cuts cs t) :
    ∀ body ∈ t.expressions, '}' ∉ body := by
  induction h with
  | tail htail => exact List.forall_mem_nil _
  | hole hfirst hbody hrest ih => exact List.forall_mem_cons.mpr ⟨hbody, ih⟩

theorem parse_of_plain {s : String} (h : containsPlaceholder s = false) :
    parse s.toList = ⟨[], s.toList⟩ := by
  rw [containsPlaceholder_eq, Option.isSome_eq_false_iff, Option.isNone_iff_eq_none] at h
  exact parse_of_firstHole?_eq_none h

-- An expression on its own is cut into itself.
theorem parse_braced {body : List Char} (h : '}' ∉ body) :
    parse (braced body) = ⟨[([], body)], []⟩ := by
  have hnothing : Cuts [] ⟨[], []⟩ := .tail (by simp)
  exact (cuts_iff.mp (.hole (opensFirst_nil _) h hnothing)).symm

end Template

namespace Resolver

open Template

variable (properties : Keyed String)

theorem answer?_of_notMem {body : List Char} (h : ':' ∉ body) :
    answer? properties body = properties.lookup (String.ofList (Text.trim body)) := by
  have hnone : body.dropWhile (· != ':') = [] := by
    rw [List.dropWhile_eq_nil_iff]
    intro c hc
    simpa using ne_of_mem_of_not_mem hc h
  rw [answer?, splitExpression, hnone]
  exact Option.or_none

theorem answer?_append {key : List Char} (h : ':' ∉ key) (default : List Char) :
    answer? properties (key ++ ':' :: default) =
      (properties.lookup (String.ofList (Text.trim key))).or (some (String.ofList default)) := by
  have hkey : ∀ c ∈ key, (c != ':') = true := by
    intro c hc
    simpa using ne_of_mem_of_not_mem hc h
  have hdrop : (key ++ ':' :: default).dropWhile (· != ':') = ':' :: default := by
    rw [List.dropWhile_append_of_pos hkey]
    rfl
  have htake : (key ++ ':' :: default).takeWhile (· != ':') = key := by
    rw [List.takeWhile_append_of_pos hkey]
    exact List.append_nil key
  rw [answer?, splitExpression, hdrop, htake]
  rfl

-- The first expression from the left that stands for nothing ends it.
theorem strict_eq (text : String) :
    (ofProperties properties).strict text =
      match (parse text.toList).expressions.find? fun body => (answer? properties body).isNone with
      | some body => .error (.unresolvable (written body))
      | none => .ok ((parse text.toList).render fun body => (answer? properties body).getD "") := by
  change resolveAll properties text = _
  rw [resolveAll, expressions, List.find?_map]
  cases h : (parse text.toList).holes.find? fun hole => (answer? properties hole.2).isNone with
  | none => simp only [h, Function.comp_def, Option.map_none]
  | some hole => simp only [h, Function.comp_def, Option.map_some]

theorem find?_unanswered_eq_none_iff {bodies : List (List Char)} :
    bodies.find? (fun body => (answer? properties body).isNone) = none ↔
      ∀ body ∈ bodies, (answer? properties body).isSome := by
  simp only [List.find?_eq_none, Bool.not_eq_true, Option.isNone_eq_false_iff]

theorem strict_eq_ok_iff {text s : String} :
    (ofProperties properties).strict text = .ok s ↔
      (∀ body ∈ (parse text.toList).expressions, (answer? properties body).isSome) ∧
        (parse text.toList).render (fun body => (answer? properties body).getD "") = s := by
  rw [strict_eq, ← find?_unanswered_eq_none_iff]
  split
  · next body hsome => simp [hsome]
  · next hnone => simp [hnone]

theorem strict_of_unanswered {text : String} {front back : List (List Char × List Char)}
    {before body : List Char} (hsplit : (parse text.toList).holes = front ++ (before, body) :: back)
    (hfront : ∀ hole ∈ front, (answer? properties hole.2).isSome)
    (hbody : answer? properties body = none) :
    (ofProperties properties).strict text = .error (.unresolvable (written body)) := by
  have hnone : (front.map (·.2)).find? (fun body => (answer? properties body).isNone) = none := by
    rw [find?_unanswered_eq_none_iff, List.forall_mem_map]
    exact hfront
  rw [strict_eq, expressions, hsplit, List.map_append, List.find?_append, hnone, Option.none_or,
    List.map_cons, List.find?_cons_of_pos (by rw [hbody, Option.isNone_none])]

-- Read on its own, an expression stands for what it stands for in the text.
theorem strict_written {body : List Char} (h : '}' ∉ body) :
    (ofProperties properties).strict (written body) =
      match answer? properties body with
      | some s => .ok s
      | none => .error (.unresolvable (written body)) := by
  rw [strict_eq, toList_written, parse_braced h]
  cases hanswer : answer? properties body <;>
    simp [expressions, hanswer, render_eq, interpolate]

theorem lenient_eq (text : String) :
    (ofProperties properties).lenient text =
      (parse text.toList).render fun body => (answer? properties body).getD (written body) := by
  change resolveEach (ofProperties properties).strict text = _
  rw [resolveEach]
  apply render_congr
  intro body hbody
  rw [strict_written properties ((cuts_parse _).notMem_expression body hbody)]
  cases answer? properties body <;> rfl

-- Where strict resolution succeeds, lenient resolution gives the same.
theorem lenient_of_strict {text s : String} (h : (ofProperties properties).strict text = .ok s) :
    (ofProperties properties).lenient text = s := by
  obtain ⟨hanswered, hrender⟩ := (strict_eq_ok_iff properties).mp h
  rw [lenient_eq, ← hrender]
  apply render_congr
  intro body hbody
  obtain ⟨r, hr⟩ := Option.isSome_iff_exists.mp (hanswered body hbody)
  rw [hr, Option.getD_some, Option.getD_some]

theorem strict_of_plain {text : String} (h : containsPlaceholder text = false) :
    (ofProperties properties).strict text = .ok text := by
  rw [strict_eq_ok_iff, parse_of_plain h]
  exact ⟨List.forall_mem_nil _, String.ofList_toList⟩

-- There is one way to cut a text at its expressions. Resolution puts what the expressions stand for
-- in their places, and never looks at that again. Where one stands for nothing, strict resolution
-- fails with the first such expression, and lenient resolution leaves each of them as it is.
theorem resolution_of_cuts (text : String) :
    ∃ t : Template, (∀ t', Cuts text.toList t' ↔ t' = t) ∧ t.interpolate braced = text.toList ∧
      (containsPlaceholder text ↔ t.holes ≠ []) ∧
      ∀ properties : Keyed String,
        let resolver := ofProperties properties
        let answer? := answer? properties
        (∀ body, ':' ∉ body →
          answer? body = properties.lookup (String.ofList (Text.trim body))) ∧
        (∀ key default, ':' ∉ key → answer? (key ++ ':' :: default) =
          (properties.lookup (String.ofList (Text.trim key))).or (some (String.ofList default))) ∧
        (∀ r : List Char → String, (∀ hole ∈ t.holes, answer? hole.2 = some (r hole.2)) →
          resolver.strict text = .ok (String.ofList (t.interpolate fun body => (r body).toList))) ∧
        (∀ front before body back, t.holes = front ++ (before, body) :: back →
          (∀ hole ∈ front, (answer? hole.2).isSome) → answer? body = none →
          resolver.strict text = .error (.unresolvable (written body))) ∧
        resolver.lenient text =
          String.ofList (t.interpolate fun body => ((answer? body).getD (written body)).toList) := by
  refine ⟨parse text.toList, fun t' => cuts_iff, (cuts_parse _).interpolate_braced,
    containsPlaceholder_iff, ?_⟩
  intro properties resolver answer?
  refine ⟨fun body => answer?_of_notMem properties,
    fun key default h => answer?_append properties h default, ?_, ?_, ?_⟩
  · intro r hr
    have hanswered : ∀ body ∈ (parse text.toList).expressions, answer? body = some (r body) :=
      List.forall_mem_map.mpr hr
    refine (strict_eq_ok_iff properties).mpr ⟨?_, ?_⟩
    · intro body hbody
      exact Option.isSome_of_eq_some (hanswered body hbody)
    · rw [← render_eq]
      apply render_congr
      intro body hbody
      exact congrArg (Option.getD · "") (hanswered body hbody)
  · intro front before body back hsplit hfront hbody
    exact strict_of_unanswered properties hsplit hfront hbody
  · rw [lenient_eq, render_eq]

end Resolver

end LayeredAnnotations
