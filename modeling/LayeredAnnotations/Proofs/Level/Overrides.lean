import LayeredAnnotations.Proofs.Level.Built

namespace LayeredAnnotations

namespace Answers

-- How a level's answers about single members go together with its answers about all members.
structure MembersCoherent (a : Answers) (name member : String) : Prop where
  explicit_begins : a.ask (.explicit name) <+: a.ownMembers name
  ownMembers_eq_nil : a.ask (.explicit name) = [] → a.ownMembers name = []
  default?_of_lookup : ∀ d, (a.ask (.defaults name)).lookup member = some d →
    a.ask (.default? name member) = some d
  default?_eq_none : a.ask (.defaults name) = [] → a.ask (.default? name member) = none

theorem foldl_fill_ownMembers (levels : List Answers) (name : String) (m : Members) :
    (levels.map (·.ownMembers name)).foldl Keyed.fill m =
      ((levels.filterMap (·.ask (.find? name))).map (·.members)).foldl Keyed.fill m := by
  induction levels generalizing m with
  | nil => rfl
  | cons l rest ih =>
    rw [List.map_cons, List.foldl_cons, List.filterMap_cons]
    cases h : l.ask (.find? name) with
    | none =>
      rw [ownMembers_of_find?_eq_none h]
      exact ih m
    | some o =>
      rw [ownMembers_of_find? h]
      exact ih (m.fill o.members)

-- Whether a level has the annotation or not, its members fill in what is missing so far.
theorem ownMembers_layered {declared : Answers} {ancestors : List Answers} {name : String}
    (h : ∀ l ∈ declared :: ancestors, (l.ownMembers name).Distinct) :
    (layered declared ancestors).ownMembers name =
      ((declared :: ancestors).map (·.ownMembers name)).foldl Keyed.fill [] := by
  rw [foldl_fill_ownMembers]
  cases hmerged : (layered declared ancestors).ask (.find? name) with
  | none =>
    have hnone : (declared :: ancestors).filterMap (·.ask (.find? name)) = [] :=
      List.filterMap_eq_nil_iff.mpr ((merged?_eq_none_iff _ name).mp hmerged)
    rw [ownMembers_of_find?_eq_none hmerged, hnone]
    rfl
  | some o =>
    obtain ⟨first, others, hfound, -, hmembers⟩ := exists_merge_of_merged? hmerged
    have hfirst : first ∈ (declared :: ancestors).filterMap (·.ask (.find? name)) := by
      rw [hfound]
      exact List.mem_cons_self
    obtain ⟨l, hl, hask⟩ := List.mem_filterMap.mp hfirst
    have hdistinct := ownMembers_of_find? hask ▸ h l hl
    rw [ownMembers_of_find? hmerged, hmembers, Occurrence.members_merge, hfound, List.map_cons,
      List.foldl_cons, Keyed.nil_fill hdistinct]

section Layered

variable {name member : String} {levels : List Answers}
  (h : ∀ l ∈ levels, l.MembersCoherent name member)

include h

-- In front of the level that the explicit members are taken from, none has any to fill in.
theorem firstNonEmpty_explicit (hdistinct : ∀ l ∈ levels, (l.ownMembers name).Distinct) :
    let explicit := firstNonEmpty (fun l : Answers => l.ask (.explicit name)) levels
    let filled := (levels.map (·.ownMembers name)).foldl Keyed.fill []
    explicit <+: filled ∧ (explicit = [] → filled = []) := by
  induction levels with
  | nil => exact ⟨List.prefix_refl [], fun _ => rfl⟩
  | cons l rest ih =>
    obtain ⟨hl, hrest⟩ := List.forall_mem_cons.mp h
    obtain ⟨hldistinct, hrestdistinct⟩ := List.forall_mem_cons.mp hdistinct
    rw [firstNonEmpty, List.map_cons, List.foldl_cons, Keyed.nil_fill hldistinct]
    cases hexplicit : l.ask (.explicit name) with
    | nil =>
      rw [hl.ownMembers_eq_nil hexplicit]
      exact ih hrest hrestdistinct
    | cons entry entries =>
      have hbegins := hexplicit ▸ hl.explicit_begins
      exact ⟨hbegins.trans (Keyed.prefix_foldl_fill _ _),
        fun hnil => absurd hnil (List.cons_ne_nil entry entries)⟩

-- In front of the level that the defaults are taken from, none has a default for any member.
theorem firstNonEmpty_defaults :
    let defaults := firstNonEmpty (fun l : Answers => l.ask (.defaults name)) levels
    let default? := levels.findSome? (·.ask (.default? name member))
    (∀ d, defaults.lookup member = some d → default? = some d) ∧
      (defaults = [] → default? = none) := by
  induction levels with
  | nil =>
    refine ⟨?_, fun _ => rfl⟩
    intro d hd
    exact absurd hd.symm (Option.some_ne_none d)
  | cons l rest ih =>
    obtain ⟨hl, hrest⟩ := List.forall_mem_cons.mp h
    rw [firstNonEmpty, List.findSome?_cons]
    cases hdefaults : l.ask (.defaults name) with
    | nil =>
      rw [hl.default?_eq_none hdefaults]
      exact ih hrest
    | cons entry entries =>
      refine ⟨?_, fun hnil => absurd hnil (List.cons_ne_nil entry entries)⟩
      intro d hd
      rw [hl.default?_of_lookup d (hdefaults ▸ hd)]

end Layered

theorem MembersCoherent.layered {declared : Answers} {ancestors : List Answers}
    {name member : String} (h : ∀ l ∈ declared :: ancestors, l.MembersCoherent name member)
    (hdistinct : ∀ l ∈ declared :: ancestors, (l.ownMembers name).Distinct) :
    (Answers.layered declared ancestors).MembersCoherent name member := by
  obtain ⟨hbegins, hnil⟩ := firstNonEmpty_explicit h hdistinct
  obtain ⟨hlookup, hnone⟩ := firstNonEmpty_defaults h
  have hown := ownMembers_layered hdistinct
  constructor
  · exact hown ▸ hbegins
  · exact hown ▸ hnil
  · exact hlookup
  · exact hnone

end Answers

theorem Record.membersCoherent (r : Record) (name member : String) :
    r.answers.MembersCoherent name member where
  explicit_begins := List.prefix_refl _
  ownMembers_eq_nil := id
  default?_of_lookup _ h := h
  default?_eq_none h := by
    have hdefaults : r.defaultsOf name = [] := h
    change (r.defaultsOf name).lookup member = none
    rw [hdefaults, List.lookup_nil]

theorem Expander.membersCoherent_answers (x : Expander) {inner : Answers} {name member : String}
    (h : inner.MembersCoherent name member) : (x.answers inner).MembersCoherent name member where
  explicit_begins := h.explicit_begins
  ownMembers_eq_nil := h.ownMembers_eq_nil
  default?_of_lookup := h.default?_of_lookup
  default?_eq_none := h.default?_eq_none

namespace Level

-- A layered level takes explicit members and defaults from the first level that has any, and the
-- default of a member from the first level that has one, instead of putting an occurrence together.
-- However levels are nested, what it answers is the beginning of what is found, nothing only if
-- nothing is found, and a default that its defaults have is the one it has for the member.
theorem Built.members_coherent {l : Level} (h : l.Built) (name member : String) :
    l.answers.MembersCoherent name member := by
  induction h with
  | empty => exact Record.empty.membersCoherent name member
  | recorded findings _ => exact (Record.ofFindings findings).membersCoherent name member
  | expanding x _ ih => exact x.membersCoherent_answers ih
  | @layered declared ancestors hlevels ih =>
    rw [answers_layered]
    apply Answers.MembersCoherent.layered
    · rw [← List.map_cons, List.forall_mem_map]
      exact ih
    · rw [← List.map_cons, List.forall_mem_map]
      exact fun l hl => (hlevels l hl).distinct_ownMembers name

-- The element bears a marker, and what two ancestors give comes together in what is found.
theorem Built.members_coherent_marker :
    let marker := Level.recorded (.ofFindings [.present .declared ⟨"Tag", [], []⟩])
    let parent := Level.recorded (.ofFindings
      [.present .inherited ⟨"Tag", [("a", .int 1)], []⟩, .defaults "Tag" [("c", .int 3)]])
    let outer := Level.recorded (.ofFindings
      [.present .declared ⟨"Tag", [("b", .int 2)], []⟩, .defaults "Tag" [("c", .int 4)]])
    let l := Level.layered marker
      [.layered .empty [.expanding ⟨.ofProperties [], .silent, false⟩ parent], outer]
    l.Built ∧ l.answers.MembersCoherent "Tag" "c" ∧
      l.answers.ask (.explicit "Tag") = [("a", .int 1)] ∧
      l.answers.ownMembers "Tag" = [("a", .int 1), ("b", .int 2)] ∧
      l.answers.ask (.default? "Tag" "c") = some (.int 3) := by
  intro marker parent outer l
  have hparent :
      (Level.layered .empty [.expanding ⟨.ofProperties [], .silent, false⟩ parent]).Built :=
    .layered (List.forall_mem_cons.mpr
      ⟨.empty, List.forall_mem_singleton.mpr (.expanding _ (.recorded _ (by decide)))⟩)
  have hbuilt : l.Built := .layered (List.forall_mem_cons.mpr
    ⟨.recorded _ (by decide), List.forall_mem_cons.mpr
      ⟨hparent, List.forall_mem_singleton.mpr (.recorded _ (by decide))⟩⟩)
  have hcoherent := hbuilt.members_coherent "Tag" "c"
  exact ⟨hbuilt, hcoherent, rfl, rfl, hcoherent.default?_of_lookup _ rfl⟩

end Level

end LayeredAnnotations
