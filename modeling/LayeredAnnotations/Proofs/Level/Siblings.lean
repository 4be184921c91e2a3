import LayeredAnnotations.Proofs.Level.Element
import Mathlib.Data.List.Induction

namespace LayeredAnnotations

namespace Level

-- An ancestor on which nothing was found has nothing to say, whatever the question.
theorem answers_layered_empty (declared : Level) :
    (layered declared [.empty]).answers = (layered declared []).answers := by
  rw [answers_layered, answers_layered]
  refine congrArg Answers.mk (funext fun α => funext fun q => ?_)
  cases q <;> rfl

-- Levels with another one in the place of the element's own, which is given last.
theorem ofOutermost_dropLast_concat {levels ancestors : List Level} {declared : Level}
    (h : levels.reverse = declared :: ancestors) (child : Level) :
    ofOutermost (levels.dropLast ++ [child]) = layered child ancestors := by
  have hancestors : levels.dropLast.reverse = ancestors := by
    rw [← List.tail_reverse, h, List.tail_cons]
  rw [ofOutermost, List.reverse_append, hancestors]
  rfl

section Chain

variable {ancestors : List Level} (h : ancestors ≠ [])

include h

theorem sibling_layered (declared child : Level) :
    (layered declared ancestors).sibling child = layered child ancestors := by
  cases ancestors with
  | nil => exact absurd rfl h
  | cons a rest => rfl

-- One sibling after another: each has its own element, and all have the ancestors of the first.
theorem scanl_sibling (declared : Level) (children : List Level) :
    children.scanl sibling (layered declared ancestors) =
      layered declared ancestors :: children.map (layered · ancestors) := by
  induction children generalizing declared with
  | nil => exact List.scanl_nil
  | cons child rest ih => rw [List.scanl_cons, sibling_layered h, ih, List.map_cons]

end Chain

-- What the levels are that siblings are made from, if there are ancestors to share.
theorem exists_ancestors_of_layers {levels : List Level}
    (h : 2 ≤ (ofOutermost levels).layers.length) :
    ∃ declared ancestors, ofOutermost levels = layered declared ancestors ∧ ancestors ≠ [] ∧
      ∀ child, (layered child ancestors).answers =
        (ofOutermost (levels.dropLast ++ [child])).answers := by
  cases hlevels : levels.reverse with
  | nil =>
    obtain rfl := List.reverse_eq_nil_iff.mp hlevels
    exact ⟨.empty, [.empty], rfl, List.cons_ne_nil _ _, answers_layered_empty⟩
  | cons declared ancestors =>
    have hwhole : ofOutermost levels = layered declared ancestors := by
      rw [ofOutermost, hlevels]
    refine ⟨declared, ancestors, hwhole, ?_, ?_⟩
    · rintro rfl
      rw [hwhole] at h
      exact absurd h (Nat.not_succ_le_self 1)
    · intro child
      rw [ofOutermost_dropLast_concat hlevels]

-- However levels are nested, the questions about what is declared are answered by what the element
-- itself declares. A sibling of a layered level, of one of its siblings, and so on, answers every
-- question as if it had been put together from the ancestors and its own element, no matter what
-- siblings were made of it or of others since; the first one of the chain stays as it was.
theorem ask_declared_and_siblings :
    (∀ (l : Level) {α : Type} (q : Question α), q.AboutDeclared →
      l.answers.ask q = l.element.answers.ask q) ∧
    ∀ (levels children : List Level), 2 ≤ (ofOutermost levels).layers.length →
      let whole := ofOutermost levels
      let withOwn := fun child => ofOutermost (levels.dropLast ++ [child])
      (children.scanl sibling whole).map answers =
        whole.answers :: children.map (fun child => (withOwn child).answers) ∧
      ∀ child ∈ children.getLast?,
        (children.foldl sibling whole).answers = (withOwn child).answers := by
  constructor
  · intro l α q hq
    exact ask_element hq l
  · intro levels children hlevels whole withOwn
    obtain ⟨declared, ancestors, hwhole, hancestors, hshared⟩ := exists_ancestors_of_layers hlevels
    have hchain := scanl_sibling hancestors declared children
    rw [← hwhole] at hchain
    constructor
    · rw [hchain, List.map_cons, List.map_map]
      exact congrArg _ (List.map_congr_left fun child _ => hshared child)
    · intro child hchild
      have hlast : (children.scanl sibling whole).getLast? = some (layered child ancestors) := by
        rw [hchain, List.getLast?_cons, List.getLast?_map, Option.mem_def.mp hchild]
        rfl
      rw [List.getLast?_scanl] at hlast
      rw [Option.some.inj hlast]
      exact hshared child

-- A layered level is the element's own level of its sibling, inside an environment, and a plain
-- element follows.
theorem ask_declared_and_siblings_reused :
    let root := recorded (.ofFindings [.present .declared ⟨"Root", [], []⟩])
    let own := recorded (.ofFindings [.present .declared ⟨"Own", [], []⟩])
    let other := recorded (.ofFindings [.present .declared ⟨"Other", [], []⟩])
    let whole := ofOutermost [root, own]
    let reused := expanding ⟨.ofProperties [], .silent, false⟩ whole
    2 ≤ whole.layers.length ∧
      (whole.sibling reused).answers.ask .declaredNames = own.answers.ask .declaredNames ∧
      [whole, whole.sibling reused, (whole.sibling reused).sibling other].map answers =
        [ofOutermost [root, own], ofOutermost [root, reused], ofOutermost [root, other]].map
          answers ∧
      ([reused, other].foldl sibling whole).answers.ask .names = ["Other", "Root"] := by
  intro root own other whole reused
  obtain ⟨hdeclared, hsiblings⟩ := ask_declared_and_siblings
  have hlayers : 2 ≤ whole.layers.length := Nat.le_refl 2
  obtain ⟨hchain, hlast⟩ := hsiblings [root, own] [reused, other] hlayers
  refine ⟨hlayers, hdeclared (whole.sibling reused) .declaredNames .declaredNames, hchain, ?_⟩
  rw [hlast other rfl]
  rfl

end Level

end LayeredAnnotations
