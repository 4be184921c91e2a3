import LayeredAnnotations.Proofs.Level.Merge
import LayeredAnnotations.Proofs.Level.Precedence
import LayeredAnnotations.Proofs.Level.Wrapping
import LayeredAnnotations.Proofs.Record.Grouping

namespace LayeredAnnotations

-- Where everyone has a first and a second choice, the second choices in front of the first one that
-- has its first choice come first.
theorem findSome?_or {α β : Type} (first second : α → Option β) (as : List α) :
    (as.findSome? fun a => (first a).or (second a)) =
      ((as.takeWhile fun a => (first a).isNone).findSome? second).or (as.findSome? first) := by
  induction as with
  | nil => rfl
  | cons a rest ih =>
    rw [List.findSome?_cons, List.findSome?_cons, List.takeWhile_cons]
    cases hfirst : first a with
    | some b => rfl
    | none =>
      rw [Option.none_or, Option.isNone_none, if_pos rfl, List.findSome?_cons]
      cases second a with
      | some b => rfl
      | none => exact ih

theorem findSome?_flatMap {α β γ : Type} (f : β → Option γ) (g : α → List β) (as : List α) :
    (as.flatMap g).findSome? f = as.findSome? fun a => (g a).findSome? f := by
  induction as with
  | nil => rfl
  | cons a rest ih =>
    rw [List.flatMap_cons, List.findSome?_append, ih, List.findSome?_cons]
    cases (g a).findSome? f <;> rfl

theorem findSome?_congr {α β : Type} {f g : α → Option β} {as : List α} (h : ∀ a ∈ as, f a = g a) :
    as.findSome? f = as.findSome? g := by
  induction as with
  | nil => rfl
  | cons a rest ih =>
    obtain ⟨ha, hrest⟩ := List.forall_mem_cons.mp h
    rw [List.findSome?_cons, List.findSome?_cons, ha, ih hrest]

namespace Answers

-- An explicit member of an annotation as it is found.
def given? (a : Answers) (name member : String) : Option Value :=
  (a.ownMembers name).lookup member

-- The default that an annotation is found with for a member.
def attached? (a : Answers) (name member : String) : Option Value :=
  (a.ask (.find? name)).bind (·.defaults.lookup member)

-- A member as views built from the annotation have it.
def viewed? (a : Answers) (name member : String) : Option Value :=
  (a.ask (.find? name)).bind (·.get? member)

section Members

variable (a : Answers) (name member : String)

theorem viewed?_eq :
    a.viewed? name member = (a.given? name member).or (a.attached? name member) := by
  rw [viewed?, given?, attached?]
  cases h : a.ask (.find? name) with
  | none => rw [ownMembers_of_find?_eq_none h]; rfl
  | some o => rw [ownMembers_of_find? h]; rfl

theorem bind_read?_find? (α : Type) [OfValue α] :
    (a.ask (.find? name)).bind (·.read? α member) =
      (a.viewed? name member).bind (Value.read? α) := by
  rw [viewed?, Option.bind_assoc]
  rfl

theorem given?_layered (declared : Answers) (ancestors : List Answers) :
    (layered declared ancestors).given? name member =
      (declared :: ancestors).findSome? (·.given? name member) := by
  cases h : merged? (declared :: ancestors) name with
  | none =>
    have hnone := (merged?_eq_none_iff _ name).mp h
    rw [given?, ownMembers_of_find?_eq_none h, List.lookup_nil, eq_comm,
      List.findSome?_eq_none_iff]
    intro l hl
    rw [given?, ownMembers_of_find?_eq_none (hnone l hl), List.lookup_nil]
  | some o =>
    rw [given?, ownMembers_of_find? h]
    exact lookup_merged? h member

end Members

end Answers

theorem Value.filter_readable_bind (α : Type) [OfValue α] (v? : Option Value) :
    (v?.filter (Value.readable α)).bind (Value.read? α) = v?.bind (Value.read? α) := by
  cases v? with
  | none => rfl
  | some v => cases h : v.read? α <;> simp [Option.filter_some, Value.readable, h]

-- Of an annotation with an entry of its own, a lookup gives the members as they are found. Without
-- one it does not look any further.
theorem Record.raw?_of_isSome {r : Record} {name : String} (h : (r.entries.lookup name).isSome)
    (member : String) : r.raw? name member = r.answers.viewed? name member := by
  obtain ⟨entry, hentry⟩ := Option.isSome_iff_exists.mp h
  have hfind : r.answers.ask (.find? name) = some (r.occurrence name entry) := by
    change r.find? name = _
    rw [find?, hentry]
    rfl
  rw [raw?, hentry, Answers.viewed?, hfind]
  rfl

theorem Record.raw?_of_eq_none {r : Record} {name : String} (h : r.entries.lookup name = none)
    (member : String) : r.raw? name member = none := by
  rw [raw?, h]
  rfl

-- So it gives them of an annotation that is not grouped.
theorem Record.raw?_eq_viewed? (r : Record) {name : String}
    (h : r.answers.ask (.isRepeatable name) = false) (member : String) :
    r.raw? name member = r.answers.viewed? name member := by
  have hcontainer : r.containers.lookup name = none :=
    Option.isNone_iff_eq_none.mp (Option.isSome_eq_false_iff.mp h)
  cases hentry : r.entries.lookup name with
  | some entry => exact raw?_of_isSome (by rw [hentry, Option.isSome_some]) member
  | none =>
    have hfind : r.answers.ask (.find? name) = none := by
      change r.find? name = none
      rw [find?, hentry, findIn?, grouped?_of_container_eq_none name hcontainer]
      rfl
    rw [raw?_of_eq_none hentry, Answers.viewed?, hfind, Option.bind_none]

namespace Level

mutual

-- The levels that a level comes down to, with nothing layered among them.
def leaves : Level → List Level
  | .layered declared ancestors => declared.leaves ++ leavesAmong ancestors
  | l => [l]
termination_by structural l => l

def leavesAmong : List Level → List Level
  | [] => []
  | l :: rest => l.leaves ++ leavesAmong rest
termination_by structural ls => ls

end

theorem leavesAmong_eq_flatMap (levels : List Level) :
    leavesAmong levels = levels.flatMap leaves := by
  induction levels with
  | nil => rfl
  | cons l rest ih => rw [leavesAmong, List.flatMap_cons, ih]

theorem leaves_layered (declared : Level) (ancestors : List Level) :
    (layered declared ancestors).leaves = (declared :: ancestors).flatMap leaves := by
  rw [leaves, leavesAmong_eq_flatMap, List.flatMap_cons]

-- What is asked for on one level after another is asked for on one leaf after another.
theorem findSome?_leaves {β : Type} {f : Level → Option β}
    (hf : ∀ declared ancestors, f (layered declared ancestors) =
      (declared :: ancestors).findSome? f) (l : Level) : l.leaves.findSome? f = f l := by
  have hleaf : ∀ l : Level, [l].findSome? f = f l := by
    intro l
    rw [List.findSome?_singleton]
  induction l with
  | layered declared ancestors ih =>
    rw [leaves_layered, findSome?_flatMap, hf]
    exact findSome?_congr ih
  | empty => exact hleaf _
  | recorded r => exact hleaf _
  | expanding x inner _ => exact hleaf _
  | forwarding inner _ => exact hleaf _

-- A level that is about one element, with nothing around it.
inductive Single : Level → Prop
  | empty : Single .empty
  | recorded (r : Record) : Single (.recorded r)

section Leaves

variable {l : Level} {name : String} (hsingle : ∀ k ∈ l.leaves, k.Single)
  (hgrouped : ∀ k ∈ l.leaves, k.answers.ask (.isRepeatable name) = false) (member : String)

theorem given?_eq_findSome? (l : Level) (name member : String) :
    l.answers.given? name member = l.leaves.findSome? (·.answers.given? name member) := by
  refine (findSome?_leaves (f := fun l => l.answers.given? name member) ?_ l).symm
  intro declared ancestors
  rw [answers_layered, Answers.given?_layered, ← List.map_cons, List.findSome?_map]
  rfl

theorem Single.scalar?_eq {k : Level} (h : k.Single)
    (hgrouped : k.answers.ask (.isRepeatable name) = false) (accept : Value → Bool) :
    k.scalar? none name member accept = (k.answers.viewed? name member).filter accept := by
  have hrecord : ∀ r : Record, r.answers.ask (.isRepeatable name) = false →
      (r.raw? name member).filter accept = (r.answers.viewed? name member).filter accept := by
    intro r hr
    rw [r.raw?_eq_viewed? hr]
  cases h with
  | empty => exact hrecord .empty hgrouped
  | recorded r => exact hrecord r hgrouped

theorem Single.value?_eq {k : Level} (h : k.Single)
    (hgrouped : k.answers.ask (.isRepeatable name) = false) :
    k.value? name member = k.answers.viewed? name member := by
  rw [value?, h.scalar?_eq member hgrouped, filter_all]

include hsingle hgrouped

theorem scalar?_eq_findSome? (accept : Value → Bool) :
    l.scalar? none name member accept =
      l.leaves.findSome? fun k => (k.answers.viewed? name member).filter accept := by
  have hleaves : l.leaves.findSome? (·.scalar? none name member accept) =
      l.scalar? none name member accept :=
    findSome?_leaves (scalar?_layered none name member accept) l
  rw [← hleaves]
  exact findSome?_congr fun k hk => (hsingle k hk).scalar?_eq member (hgrouped k hk) accept

theorem value?_eq_findSome? :
    l.value? name member = l.leaves.findSome? (·.answers.viewed? name member) := by
  rw [value?, scalar?_eq_findSome? hsingle hgrouped]
  simp only [filter_all]

theorem read?_eq_findSome? (α : Type) [OfValue α] :
    (l.answers.read? α none name member).value =
      l.leaves.findSome? fun k => (k.answers.viewed? name member).bind (Value.read? α) := by
  rw [value_read?, scalar?_eq_findSome? hsingle hgrouped, findSome?_bind]
  · exact findSome?_congr fun k _ => Value.filter_readable_bind α _
  · intro k _ v hv
    exact (Option.filter_eq_some_iff.mp hv).2

end Leaves

-- Where all who have a value have the same one, it can be read before or after it is chosen.
theorem findSome?_bind_of_same {α : Type} {levels : List Level} {f : Level → Option Value}
    (read : Value → Option α)
    (h : ∀ k ∈ levels, ∀ v, f k = some v → levels.findSome? f = some v) :
    (levels.findSome? fun k => (f k).bind read) = (levels.findSome? f).bind read := by
  cases hv : levels.findSome? f with
  | none =>
    rw [List.findSome?_eq_none_iff] at hv
    rw [Option.bind_none, List.findSome?_eq_none_iff]
    intro k hk
    rw [hv k hk, Option.bind_none]
  | some v =>
    have hsame : ∀ k ∈ levels, ∀ w, f k = some w → w = v := by
      intro k hk w hw
      exact Option.some.inj ((h k hk w hw).symm.trans hv)
    cases hread : read v with
    | some a =>
      rw [← hv]
      refine (findSome?_bind fun k hk w hw => ?_).symm
      rw [hsame k hk w hw, hread, Option.isSome_some]
    | none =>
      rw [Option.bind_some, hread, List.findSome?_eq_none_iff]
      intro k hk
      cases hw : f k with
      | none => rfl
      | some w => rw [Option.bind_some, hsame k hk w hw, hread]

-- Readings of all types tell all values apart, so that they only agree if it is the same value
-- everywhere.
theorem forall_findSome?_read?_iff {levels : List Level} {f : Level → Option Value}
    {v? : Option Value} :
    (∀ (α : Type) [OfValue α],
      (levels.findSome? fun k => (f k).bind (Value.read? α)) = v?.bind (Value.read? α)) ↔
      levels.findSome? f = v? ∧ ∀ k ∈ levels, ∀ v, f k = some v → v? = some v := by
  constructor
  · intro h
    refine ⟨?_, ?_⟩
    · have hvalue := h Value
      have hself : ∀ w? : Option Value, w?.bind (Value.read? Value) = w? := by
        intro w?
        cases w? <;> rfl
      simpa only [hself] using hvalue
    · intro k hk v hv
      classical
      -- a type that nothing but `v` is read as
      have honly : (levels.findSome? fun k => (f k).bind fun w => if w = v then some () else none) =
          v?.bind fun w => if w = v then some () else none :=
        @h Unit ⟨"value", fun w => if w = v then some () else none⟩
      have hread : (v?.bind fun w => if w = v then some () else none).isSome := by
        rw [← honly, List.findSome?_isSome_iff]
        exact ⟨k, hk, by simp [hv]⟩
      cases v? with
      | none => exact nomatch hread
      | some w =>
        rw [Option.bind_some] at hread
        split at hread
        · next heq => rw [heq]
        · exact nomatch hread
  · rintro ⟨rfl, hall⟩ α _
    exact findSome?_bind_of_same (Value.read? α) hall

-- A marker with a default, and the same annotation where it gives the member.
def defaultedTag : List Finding :=
  [.defaults "Tag" [("value", .string "d")], .present .declared ⟨"Tag", [], []⟩]

def givenTag : List Finding := [.present .declared ⟨"Tag", [("value", .string "x")], []⟩]

-- A lookup takes the default that the first level has for a member, although an ancestor gives it.
-- Where an annotation is put together from all levels, what is given anywhere comes first.
theorem not_forall_value?_eq_viewed? :
    ¬ ∀ (elements : List (List Finding)) (name member : String),
      let levels := elements.map fun findings => recorded (.ofFindings findings)
      let whole := ofOutermost levels
      (∀ l ∈ levels, l.answers.ask (.isRepeatable name) = false) →
        whole.value? name member = whole.answers.viewed? name member := by
  intro h
  have heq : some (Value.string "d") = some (Value.string "x") :=
    h [givenTag, defaultedTag] "Tag" "value" (by decide)
  exact absurd (Value.string.inj (Option.some.inj heq)) (by decide)

-- A lookup goes from level to level, each with what is given there or else its default; a view has
-- what is given on any level before the default that it comes with. So a lookup of a member gives
-- another value than a view exactly if there is another default in front of the first level that
-- gives the member, or if nobody gives it and the first default is not the one that comes with the
-- view. A lookup also passes over a value that cannot be read as the type asked for, and a view
-- does not: that they agree for all types means that there is only one value.
theorem value?_eq_viewed?_iff {l : Level} {name : String} (hsingle : ∀ k ∈ l.leaves, k.Single)
    (hgrouped : ∀ k ∈ l.leaves, k.answers.ask (.isRepeatable name) = false) (member : String) :
    let given? := l.answers.given? name member
    let attached? := l.answers.attached? name member
    let front := l.leaves.takeWhile fun k => (k.answers.given? name member).isNone
    let ahead? := front.findSome? (·.answers.attached? name member)
    (∀ k ∈ l.leaves, k.value? name member = k.answers.viewed? name member) ∧
    given? = l.leaves.findSome? (·.answers.given? name member) ∧
    l.value? name member = ahead?.or given? ∧
    l.answers.viewed? name member = given?.or attached? ∧
    (l.value? name member = l.answers.viewed? name member ↔
      (∀ v d, given? = some v → ahead? = some d → d = v) ∧
        (given? = none → ahead? = attached?)) ∧
    ((∀ (α : Type) [OfValue α], (l.answers.read? α none name member).value =
        (l.answers.ask (.find? name)).bind (·.read? α member)) ↔
      l.value? name member = l.answers.viewed? name member ∧
        ∀ k ∈ l.leaves, ∀ v, k.value? name member = some v →
          l.value? name member = some v) := by
  intro given? attached? front ahead?
  have hleaf : ∀ k ∈ l.leaves, k.value? name member = k.answers.viewed? name member :=
    fun k hk => (hsingle k hk).value?_eq member (hgrouped k hk)
  have hgiven := given?_eq_findSome? l name member
  have hvalues := value?_eq_findSome? hsingle hgrouped member
  have hviewed : l.answers.viewed? name member = given?.or attached? :=
    l.answers.viewed?_eq name member
  have hvalue : l.value? name member = ahead?.or given? := by
    simp only [hvalues, Answers.viewed?_eq, findSome?_or, ← hgiven, ahead?, front, given?]
  refine ⟨hleaf, hgiven, hvalue, hviewed, ?_, ?_⟩
  · rw [hvalue, hviewed]
    cases given? <;> cases ahead? <;> simp
  · simp only [read?_eq_findSome? hsingle hgrouped, Answers.bind_read?_find?,
      forall_findSome?_read?_iff, ← hvalues]
    refine and_congr_right fun heq => forall₂_congr fun k hk => ?_
    rw [hleaf k hk, heq]

-- However deep they are, lookups get the default of the inner marker and views what its ancestor
-- gives.
theorem value?_eq_viewed?_iff_defaultedTag :
    let own := recorded (.ofFindings defaultedTag)
    let outer := recorded (.ofFindings givenTag)
    let l := layered .empty [layered own [outer]]
    (∀ k ∈ l.leaves, k.Single) ∧ (∀ k ∈ l.leaves, k.answers.ask (.isRepeatable "Tag") = false) ∧
      l.value? "Tag" "value" = some (.string "d") ∧
      l.answers.viewed? "Tag" "value" = some (.string "x") := by
  intro own outer l
  have hleaves : l.leaves = [.empty, own, outer] := rfl
  have hsingle : ∀ k ∈ l.leaves, k.Single := by
    rw [hleaves]
    exact List.forall_mem_cons.mpr ⟨.empty, List.forall_mem_cons.mpr
      ⟨.recorded _, List.forall_mem_singleton.mpr (.recorded _)⟩⟩
  have hgrouped : ∀ k ∈ l.leaves, k.answers.ask (.isRepeatable "Tag") = false := by decide
  obtain ⟨-, -, hvalue, hviewed, -, -⟩ := value?_eq_viewed?_iff hsingle hgrouped "value"
  exact ⟨hsingle, hgrouped, hvalue, hviewed⟩

end Level

end LayeredAnnotations
