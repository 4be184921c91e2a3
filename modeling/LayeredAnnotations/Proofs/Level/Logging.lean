import LayeredAnnotations.Proofs.Level.Flattening
import LayeredAnnotations.Proofs.Level.Precedence

namespace LayeredAnnotations

universe u v

namespace Logged

theorem first_map {α : Type u} {γ : Type v} {β : Type} (ask : α → Logged (Option β)) (f : γ → α)
    (as : List γ) : first ask (as.map f) = first (fun a => ask (f a)) as := by
  induction as with
  | nil => rfl
  | cons a rest ih => rw [List.map_cons, first_cons, first_cons, ih]

section Answered

variable {α : Type u} {β : Type} {ask : α → Logged (Option β)}

theorem orElse_of_none {x : Logged (Option β)} (h : x.value = none) (y : Logged (Option β)) :
    x.orElse y = ⟨y.value, x.log ++ y.log⟩ := by
  obtain ⟨value, log⟩ := x
  obtain rfl : value = none := h
  rfl

theorem orElse_of_some {x : Logged (Option β)} {b : β} (h : x.value = some b)
    (y : Logged (Option β)) : x.orElse y = x := by
  obtain ⟨value, log⟩ := x
  obtain rfl : value = some b := h
  exact ext rfl (List.append_nil log)

theorem first_of_forall_none {as : List α} (h : ∀ a ∈ as, (ask a).value = none) :
    first ask as = ⟨none, as.flatMap fun a => (ask a).log⟩ := by
  induction as with
  | nil => rfl
  | cons a rest ih =>
    obtain ⟨ha, hrest⟩ := List.forall_mem_cons.mp h
    rw [first_cons, orElse_of_none ha, ih hrest, List.flatMap_cons]

-- Nothing is left of those behind the first who answers.
theorem first_of_answer {before : List α} {a : α} {b : β}
    (hbefore : ∀ a ∈ before, (ask a).value = none) (ha : (ask a).value = some b)
    (behind : List α) :
    first ask (before ++ a :: behind) =
      ⟨some b, (before ++ [a]).flatMap fun a => (ask a).log⟩ := by
  have hnone := first_of_forall_none hbefore
  rw [first_append, first_cons, orElse_of_some ha, hnone, orElse_of_none rfl, ha,
    List.flatMap_append, List.flatMap_singleton]

end Answered

end Logged

namespace Expander

section Notes

variable {x : Expander} {inner : Answers} {mapper : Option Mapper} {name member : String}
  {accept : Value → Bool}

theorem log_note_of_journal (h : x.sink = .journal) (text : Thunk String) :
    (x.note text).log = [.note .debug text.get] := by
  rw [note, h]
  rfl

-- What is lost by expansion is noted.
theorem exists_note_of_expand (h : x.sink = .journal) {raw : Value}
    (hlost : (x.expand inner name member raw).value = none) :
    ∃ text, .note .debug text ∈ (x.expand inner name member raw).log := by
  rw [expand] at hlost ⊢
  split at hlost
  · next hexpressions =>
    rw [if_pos hexpressions]
    split at hlost
    · next failure hfailure =>
      rw [Logged.log_bind, log_note_of_journal h]
      exact ⟨_, List.mem_append_left _ (List.mem_singleton_self _)⟩
    · next hexpanded => split at hlost <;> exact absurd hlost (Option.some_ne_none _)
  · exact absurd hlost (Option.some_ne_none raw)

-- Only expressions that are kept as text are noted about a value that is handed out.
theorem log_expand_of_strict (h : x.keepUnresolved = false) {raw v : Value}
    (hv : (x.expand inner name member raw).value = some v) :
    (x.expand inner name member raw).log = [] := by
  rw [expand] at hv ⊢
  split at hv
  · next hexpressions =>
    rw [if_pos hexpressions]
    split at hv
    · exact absurd hv.symm (Option.some_ne_none v)
    · rw [h]
      rfl
  · next hnone =>
    rw [if_neg hnone]
    rfl

variable (x mapper) in
theorem value_of_raw {raw : Value} (hraw : (inner.value name member).value = some raw) :
    x.value inner mapper name member =
      ⟨(x.expand inner name member raw).value.map (mapper.getD id),
        (inner.value name member).log ++ (x.expand inner name member raw).log⟩ := by
  apply Logged.ext
  · rw [value, Logged.value_bind, hraw]
    rfl
  · rw [value, Logged.log_bind, hraw, Logged.log_bind, Logged.log_pure, List.append_nil]

-- What is not accepted is noted too.
theorem exists_note_of_scalar (h : x.sink = .journal)
    (hraw : (inner.value name member).value ≠ none)
    (hlost : (x.scalar inner mapper name member accept).value = none) :
    ∃ text, .note .debug text ∈ (x.scalar inner mapper name member accept).log := by
  obtain ⟨raw, hraw⟩ := Option.ne_none_iff_exists'.mp hraw
  have hvalue := value_of_raw x mapper hraw
  rw [scalar, Logged.log_bind]
  cases hv : (x.value inner mapper name member).value with
  | none =>
    rw [hvalue, Option.map_eq_none_iff] at hv
    obtain ⟨text, htext⟩ := exists_note_of_expand h hv
    rw [hvalue]
    exact ⟨text, List.mem_append_left _ (List.mem_append_right _ htext)⟩
  | some v =>
    rw [value_scalar, hv, Option.filter_eq_none_iff] at hlost
    dsimp only
    rw [if_neg (hlost v rfl), Logged.log_bind, log_note_of_journal h]
    exact ⟨_, List.mem_append_right _ (List.mem_append_left _ (List.mem_singleton_self _))⟩

theorem log_scalar_of_strict (h : x.keepUnresolved = false)
    (hsilent : (inner.value name member).log = [])
    (hanswer : (x.scalar inner mapper name member accept).value ≠ none) :
    (x.scalar inner mapper name member accept).log = [] := by
  obtain ⟨v, hv⟩ := Option.ne_none_iff_exists'.mp hanswer
  rw [value_scalar, Option.filter_eq_some_iff] at hv
  obtain ⟨hv, haccept⟩ := hv
  rw [scalar, Logged.log_bind, hv]
  cases hraw : (inner.value name member).value with
  | none =>
    rw [value_eq_map, hraw] at hv
    exact absurd hv.symm (Option.some_ne_none v)
  | some raw =>
    have hvalue := value_of_raw x mapper hraw
    rw [hvalue] at hv
    obtain ⟨w, hw, -⟩ := Option.map_eq_some_iff.mp hv
    rw [hvalue, hsilent, log_expand_of_strict h hw]
    dsimp only
    rw [if_pos haccept]
    rfl

end Notes

end Expander

namespace Level

section Layered

variable (mapper : Option Mapper) (name member : String) (accept : Value → Bool)
  (declared : Level) (ancestors : List Level)

-- A layered level asks its levels for a single value one by one.
theorem scalar_layered :
    (layered declared ancestors).answers.ask (.scalar mapper name member accept) =
      Logged.first
        (fun l : Level => l.answers.ask (.scalar (l.mapperFor mapper) name member accept))
        (declared :: ancestors) := by
  have hlevels := Logged.first_map (fun a : Answers => a.ask (.scalar mapper name member accept))
    answers (declared :: ancestors)
  simp only [ask_scalar_mapperFor, answers_layered]
  exact hlevels

theorem log_array_layered :
    ((layered declared ancestors).answers.ask (.array mapper name member accept)).log =
      (declared :: ancestors).flatMap fun l =>
        (l.answers.ask (.array (l.mapperFor mapper) name member accept)).log := by
  simp only [ask_array_mapperFor]
  rw [answers_layered, Answers.layered, ← List.map_cons, Logged.log_concat, List.flatMap_map]

end Layered

-- What a layered level logs about a single value is what its levels log about it one after another,
-- up to the first that answers: the answer and the log are the same whatever is behind that level.
-- Elements of arrays are looked for on all levels. An environment around a record never loses a
-- value without a note in its journal, and in strict mode has nothing to note about one that it
-- hands out.
theorem lookup_log (mapper : Option Mapper) (name member : String) (accept : Value → Bool) :
    let scalar := fun l : Level => l.answers.ask (.scalar (l.mapperFor mapper) name member accept)
    let array := fun l : Level => l.answers.ask (.array (l.mapperFor mapper) name member accept)
    (∀ declared ancestors, (∀ l ∈ declared :: ancestors, (scalar l).value = none) →
      scalar (layered declared ancestors) =
        ⟨none, (declared :: ancestors).flatMap fun l => (scalar l).log⟩) ∧
    (∀ declared ancestors before l behind v, declared :: ancestors = before ++ l :: behind →
      (∀ b ∈ before, (scalar b).value = none) → (scalar l).value = some v →
        scalar (layered declared ancestors) =
          ⟨some v, (before ++ [l]).flatMap fun l => (scalar l).log⟩) ∧
    (∀ declared ancestors, (array (layered declared ancestors)).log =
      (declared :: ancestors).flatMap fun l => (array l).log) ∧
    ∀ (x : Expander) (findings : List Finding),
      let inner := recorded (.ofFindings findings)
      let answer := scalar (expanding x inner)
      (x.sink = .journal → inner.value? name member ≠ none → answer.value = none →
        ∃ text, .note .debug text ∈ answer.log) ∧
      (x.keepUnresolved = false → answer.value ≠ none → answer.log = []) := by
  intro scalar array
  refine ⟨?_, ?_, ?_, ?_⟩
  · intro declared ancestors hnone
    have hfirst := Logged.first_of_forall_none hnone
    rw [← scalar_layered] at hfirst
    exact (ask_scalar_mapperFor _ mapper name member accept).trans hfirst
  · intro declared ancestors before l behind v hlevels hbefore hl
    have hfirst := Logged.first_of_answer hbefore hl behind
    rw [← hlevels, ← scalar_layered] at hfirst
    exact (ask_scalar_mapperFor _ mapper name member accept).trans hfirst
  · intro declared ancestors
    have hlog := log_array_layered mapper name member accept declared ancestors
    rwa [← ask_array_mapperFor] at hlog
  · intro x findings inner answer
    exact ⟨Expander.exists_note_of_scalar, fun h => Expander.log_scalar_of_strict h rfl⟩

-- Inside another level, an environment has to note that the element's own value is refused. The
-- parent has one that is accepted, and the outermost ancestor is not asked any more.
theorem lookup_log_refused :
    let x : Expander := ⟨.ofProperties [], .journal, false⟩
    let port := fun v : Value =>
      recorded (.ofFindings [.present .declared ⟨"Server", [("port", v)], []⟩])
    let own := layered (expanding x (port (.bool true))) [.empty]
    let parent := expanding x (port (.int 80))
    let whole := layered own [parent, expanding x (port (.bool false))]
    let ask := fun l : Level => l.answers.ask (.scalar none "Server" "port" (Value.readable Int32))
    (ask own).value = none ∧
      (∃ text, .note .debug text ∈ (ask (expanding x (port (.bool true)))).log) ∧
      (ask parent).log = [] ∧
      ask whole = ⟨some (.int 80),
        [.note .debug "@Server.port = true cannot be converted to the requested type"]⟩ := by
  intro x port own parent whole ask
  obtain ⟨-, hanswered, -, henvironment⟩ :=
    lookup_log none "Server" "port" (Value.readable Int32)
  have hnone : (ask own).value = none := by decide
  have hraw : (port (.bool true)).value? "Server" "port" ≠ none := fun h => nomatch h
  have hrefused := (henvironment x [.present .declared ⟨"Server", [("port", .bool true)], []⟩]).1
    rfl hraw rfl
  have hsilent := (henvironment x [.present .declared ⟨"Server", [("port", .int 80)], []⟩]).2
    rfl (fun h => nomatch h)
  have hwhole := hanswered own [parent, expanding x (port (.bool false))] [own] parent _ (.int 80)
    rfl (List.forall_mem_singleton.mpr hnone) rfl
  exact ⟨hnone, hrefused, hsilent, hwhole⟩

end Level

end LayeredAnnotations
