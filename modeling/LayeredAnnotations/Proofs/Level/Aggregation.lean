import LayeredAnnotations.Proofs.KeepFirst
import LayeredAnnotations.Proofs.Level.Built
import LayeredAnnotations.Proofs.Value.Equality

namespace LayeredAnnotations

namespace Occurrence

-- As a set of hashed occurrences does it: what an occurrence feeds to the hasher picks a bucket,
-- and it is only compared with those that are in there already.
def distinctHashed (finish bucket : List Token → UInt64) (os : List Occurrence) :
    List Occurrence :=
  keepFirst (fun kept o => bucket (kept.digest finish) == bucket (o.digest finish) && o == kept) os

theorem distinctHashed_eq_distinct (finish bucket : List Token → UInt64) {os : List Occurrence}
    (h : ∀ o ∈ os, o.WellFormed) : distinctHashed finish bucket os = distinct os := by
  rw [distinctHashed, distinct_eq]
  apply keepFirst_congr
  intro o ho p hp
  cases hop : o == p with
  | true =>
    -- equal ones are in one bucket, so that they are compared
    rw [digest_of_beq finish (h o ho) hop, beq_symm (h o ho) hop, BEq.rfl, Bool.and_true]
  | false =>
    have hpo : (p == o) = false := by
      rw [← Bool.not_eq_true]
      intro hpo
      exact nomatch hop.symm.trans (beq_symm (h p hp) hpo)
    rw [hpo, Bool.and_false]

theorem pairwise_distinct {os : List Occurrence} (h : ∀ o ∈ os, o.WellFormed) :
    (distinct os).Pairwise fun o p => ¬ o == p ∧ ¬ p == o := by
  refine (pairwise_keepFirst (· == ·) os).imp_of_mem ?_
  intro o p _ hp hop
  refine ⟨Bool.eq_false_iff.mp hop, fun hpo => ?_⟩
  have hwell := h p ((sublist_keepFirst (· == ·) os).mem hp)
  exact Bool.eq_false_iff.mp hop (beq_symm hwell hpo)

end Occurrence

namespace Answers

-- All occurrences on all levels, one level after another.
def allOccurrences (levels : List Answers) (name : String) : List Occurrence :=
  levels.flatMap (·.ask (.occurrences name))

theorem ask_occurrences_layered (declared : Answers) (ancestors : List Answers) (name : String) :
    (layered declared ancestors).ask (.occurrences name) =
      Occurrence.distinct (allOccurrences (declared :: ancestors) name) := rfl

theorem mem_allOccurrences {levels : List Answers} {name : String} {o : Occurrence} :
    o ∈ allOccurrences levels name ↔ ∃ l ∈ levels, o ∈ l.ask (.occurrences name) :=
  List.mem_flatMap

end Answers

theorem Level.Built.wellFormed_occurrences {l : Level} (h : l.Built) (name : String) :
    ∀ o ∈ l.answers.ask (.occurrences name), o.WellFormed := by
  induction h with
  | empty => exact Record.wellFormed_empty.occurrencesIn name .anywhere
  | recorded findings h => exact (Record.wellFormed_ofFindings h).occurrencesIn name .anywhere
  | expanding x h ih => exact ih
  | @layered declared ancestors h ih =>
    intro o ho
    rw [answers_layered, Answers.ask_occurrences_layered, ← List.map_cons] at ho
    obtain ⟨a, ha, hmem⟩ := Answers.mem_allOccurrences.mp ((sublist_keepFirst _ _).mem ho)
    obtain ⟨l, hl, rfl⟩ := List.mem_map.mp ha
    exact ih l hl o hmem

namespace Answers

-- A layered level neither loses an occurrence of its levels nor has two equal ones. Of equal
-- occurrences it has the first, as it stands on its level, and it has them in the order in which
-- they first appear. The hash set that this is worked out with may use any hash function.
theorem occurrences_layered (declared : Answers) (ancestors : List Answers) (name : String)
    (h : ∀ l ∈ declared :: ancestors, ∀ o ∈ l.ask (.occurrences name), o.WellFormed) :
    let levels := declared :: ancestors
    let all := allOccurrences levels name
    let kept := (layered declared ancestors).ask (.occurrences name)
    kept.Pairwise (fun o p => ¬ o == p ∧ ¬ p == o) ∧
    (∀ v : Occurrence, (∃ o ∈ kept, o == v) ↔
      ∃ l ∈ levels, ∃ o ∈ l.ask (.occurrences name), o == v) ∧
    (∀ v : Occurrence, kept.find? (· == v) = all.find? (· == v)) ∧
    kept = (all.zipIdx.filter fun place => !(all.take place.2).any (· == place.1)).map (·.1) ∧
    ∀ finish bucket : List Token → UInt64, kept = Occurrence.distinctHashed finish bucket all := by
  intro levels all kept
  have hall : ∀ o ∈ all, o.WellFormed := by
    intro o ho
    obtain ⟨l, hl, hmem⟩ := mem_allOccurrences.mp ho
    exact h l hl o hmem
  have hfind : ∀ v, kept.find? (· == v) = all.find? (· == v) :=
    find?_keepFirst (r := (· == ·)) (fun _ _ _ => Occurrence.beq_trans) all
  refine ⟨Occurrence.pairwise_distinct hall, ?_, hfind, ?_, ?_⟩
  · intro v
    calc (∃ o ∈ kept, o == v) ↔ ∃ o ∈ all, o == v := by
          rw [← List.find?_isSome (p := (· == v)), hfind, List.find?_isSome]
      _ ↔ ∃ l ∈ levels, ∃ o ∈ l.ask (.occurrences name), o == v := by
          constructor
          · rintro ⟨o, ho, hov⟩
            obtain ⟨l, hl, hmem⟩ := mem_allOccurrences.mp ho
            exact ⟨l, hl, o, hmem, hov⟩
          · rintro ⟨l, hl, o, hmem, hov⟩
            exact ⟨o, mem_allOccurrences.mpr ⟨l, hl, hmem⟩, hov⟩
  · exact keepFirst_eq_filter (r := (· == ·)) (fun _ _ _ => Occurrence.beq_trans) all
  · intro finish bucket
    exact (Occurrence.distinctHashed_eq_distinct finish bucket hall).symm

-- The element has the members of the shared tag in another order than its ancestor, and keeps them
-- so.
theorem occurrences_layered_reordered :
    let shared : Occurrence := ⟨"Tag", [("value", .string "x"), ("level", .int 1)], []⟩
    let reordered : Occurrence := ⟨"Tag", [("level", .int 1), ("value", .string "x")], []⟩
    let own := Level.recorded (.ofFindings [.present .declared shared])
    let root := Level.recorded (.ofFindings
      [.repeated .declared "Tags" reordered, .repeated .declared "Tags" ⟨"Tag", [], []⟩])
    (∀ l ∈ [own.answers, root.answers], ∀ o ∈ l.ask (.occurrences "Tag"), o.WellFormed) ∧
      ((layered own.answers [root.answers]).ask (.occurrences "Tag")).find? (· == reordered) =
        some shared := by
  intro shared reordered own root
  have hwell : ∀ l ∈ [own.answers, root.answers], ∀ o ∈ l.ask (.occurrences "Tag"),
      o.WellFormed := by
    have hown : own.Built := .recorded _ (by decide)
    have hroot : root.Built := .recorded _ (by decide)
    exact List.forall_mem_cons.mpr ⟨hown.wellFormed_occurrences "Tag",
      List.forall_mem_singleton.mpr (hroot.wellFormed_occurrences "Tag")⟩
  exact ⟨hwell, (occurrences_layered own.answers [root.answers] "Tag" hwell).2.2.1 reordered⟩

end Answers

end LayeredAnnotations
