import LayeredAnnotations.Proofs.Value.Equality

namespace LayeredAnnotations

namespace Keyed

variable {α : Type} {R : α → α → Prop} {m other : Keyed α}

theorem forall₂_partners_iff :
    List.Forall₂ (Partners R) m other ↔
      m.keys = other.keys ∧ List.Forall₂ R (m.map (·.2)) (other.map (·.2)) := by
  rw [List.forall₂_map_left_iff, List.forall₂_map_right_iff]
  constructor
  · exact fun h => ⟨keys_of_forall₂ h, h.imp fun _ _ hentry => hentry.2⟩
  · rintro ⟨hkeys, hvalues⟩
    induction hvalues with
    | nil => exact .nil
    | cons hhead _ ih =>
      obtain ⟨hkey, hrest⟩ := List.cons.inj hkeys
      exact .cons ⟨hkey, hhead⟩ (ih hrest)

-- Partners are found wherever they have been moved to, as their keys tell them apart.
theorem coveredBy_of_perm {moved : Keyed α} (hm : m.Distinct)
    (h : List.Forall₂ (Partners R) m moved) (hperm : moved.Perm other) : CoveredBy R m other := by
  have hother : other.Distinct := by
    rw [Distinct, keys_of_forall₂ h] at hm
    have hkeys : moved.keys.Perm other.keys := hperm.map _
    exact hkeys.nodup_iff.mp hm
  have hflip : List.Forall₂ (Partners fun a b => R b a) moved m :=
    h.flip.imp fun _ _ hentry => ⟨hentry.1.symm, hentry.2⟩
  intro entry hentry
  obtain ⟨a, hmem, ha⟩ := exists_partner_of_mem hflip entry hentry
  exact ⟨a, lookup_of_mem hother (hperm.mem_iff.mp hmem), ha⟩

end Keyed

namespace Value

-- Values that only differ in the order in which members are given, and in defaults, however deep
-- inside.
inductive Alike : Value → Value → Prop
  | scalar {v : Value} (h : v.isComposite = false) : Alike v v
  | array {items items' : List Value} (h : List.Forall₂ Alike items items') :
      Alike (.array items) (.array items')
  | nested {name : String} {members reordered members' defaults defaults' : Members}
      (hkeys : members.keys = reordered.keys)
      (hvalues : List.Forall₂ Alike (members.map (·.2)) (reordered.map (·.2)))
      (hperm : reordered.Perm members') :
      Alike (.nested ⟨name, members, defaults⟩) (.nested ⟨name, members', defaults'⟩)

theorem array_alike_iff (items : List Value) (w : Value) :
    Alike (array items) w ↔ ∃ items', w = array items' ∧ List.Forall₂ Alike items items' := by
  constructor
  · rintro (h | h)
    · exact nomatch h
    · exact ⟨_, rfl, h⟩
  · rintro ⟨items', rfl, h⟩
    exact .array h

theorem nested_alike_iff (o : Occurrence) (w : Value) :
    Alike (nested o) w ↔ ∃ p, w = nested p ∧ o.name = p.name ∧
      ∃ reordered, List.Forall₂ (Keyed.Partners Alike) o.members reordered ∧
        reordered.Perm p.members := by
  constructor
  · intro h
    cases h with
    | scalar h => exact nomatch h
    | nested hkeys hvalues hperm =>
      exact ⟨_, rfl, rfl, _, Keyed.forall₂_partners_iff.mpr ⟨hkeys, hvalues⟩, hperm⟩
  · rintro ⟨p, rfl, hname, reordered, hpartners, hperm⟩
    obtain ⟨name, members, defaults⟩ := o
    obtain ⟨name', members', defaults'⟩ := p
    obtain rfl : name = name' := hname
    obtain ⟨hkeys, hvalues⟩ := Keyed.forall₂_partners_iff.mp hpartners
    exact .nested hkeys hvalues hperm

theorem alike_of_beq {a b : Value} (h : a.WellFormed) (hab : a == b) : a.Alike b := by
  induction a generalizing b with
  | array items ih =>
    have hwell := (wellFormed_array items).mp h
    obtain ⟨items', rfl, hitems⟩ := (array_beq_iff items b).mp hab
    exact .array (forall₂_imp_of_mem (fun v hv _ hbeq => ih v hv (hwell v hv) hbeq) hitems)
  | nested o ih =>
    obtain ⟨⟨hdistinct, hmembers⟩, -⟩ := (wellFormed_nested o).mp h
    obtain ⟨p, rfl, hop⟩ := (nested_beq_iff o b).mp hab
    obtain ⟨hname, hlength, hcovered⟩ := (Occurrence.beq_iff o p).mp hop
    obtain ⟨found, hfound, hperm⟩ := Keyed.exists_perm_of_coveredBy hdistinct hlength hcovered
    refine (nested_alike_iff o _).mpr ⟨p, rfl, hname, found, ?_, hperm⟩
    refine forall₂_imp_of_mem ?_ hfound
    exact fun entry hentry other hother =>
      ⟨hother.1, ih entry hentry (hmembers entry hentry) hother.2⟩
  | _ =>
    obtain rfl := eq_of_beq hab rfl
    exact .scalar rfl

theorem beq_of_alike {a b : Value} (h : a.WellFormed) (hab : a.Alike b) : a == b := by
  induction a generalizing b with
  | array items ih =>
    have hwell := (wellFormed_array items).mp h
    obtain ⟨items', rfl, hitems⟩ := (array_alike_iff items b).mp hab
    refine (array_beq_iff items _).mpr ⟨items', rfl, ?_⟩
    exact forall₂_imp_of_mem (fun v hv _ halike => ih v hv (hwell v hv) halike) hitems
  | nested o ih =>
    obtain ⟨⟨hdistinct, hmembers⟩, -⟩ := (wellFormed_nested o).mp h
    obtain ⟨p, rfl, hname, reordered, hpartners, hperm⟩ := (nested_alike_iff o b).mp hab
    refine (nested_beq_iff o _).mpr ⟨p, rfl, (Occurrence.beq_iff o p).mpr ⟨hname, ?_, ?_⟩⟩
    · rw [hpartners.length_eq, hperm.length_eq]
    · refine Keyed.coveredBy_of_perm hdistinct (forall₂_imp_of_mem ?_ hpartners) hperm
      exact fun entry hentry other hother =>
        ⟨hother.1, ih entry hentry (hmembers entry hentry) hother.2⟩
  | _ =>
    cases hab
    exact beq_refl h

theorem beq_iff_alike {a b : Value} (h : a.WellFormed) : a == b ↔ a.Alike b :=
  ⟨alike_of_beq h, beq_of_alike h⟩

theorem nested_beq_nested (o p : Occurrence) : (nested o == nested p) ↔ o == p := by
  simp [nested_beq_iff]

end Value

def Occurrence.Alike (o p : Occurrence) : Prop := (Value.nested o).Alike (.nested p)

theorem Occurrence.beq_iff_alike {o p : Occurrence} (h : o.WellFormed) : o == p ↔ o.Alike p := by
  rw [Alike, ← Value.beq_iff_alike ((Value.wellFormed_nested o).mpr h), Value.nested_beq_nested]

theorem Occurrence.beq_refl {o : Occurrence} (h : o.WellFormed) : o == o := by
  rw [← Value.nested_beq_nested]
  exact Value.beq_refl ((Value.wellFormed_nested o).mpr h)

-- An equality that does not see how something is written down, with the pieces that a hasher is
-- fed.
structure LawfulEquality {α : Type} [BEq α] (ok : α → Prop) (alike : α → α → Prop)
    (digest : (List Token → UInt64) → α → List Token) : Prop where
  refl : ∀ a, ok a → a == a
  symm : ∀ a b, ok a → ok b → a == b → b == a
  trans : ∀ a b c, ok a → ok b → ok c → a == b → b == c → a == c
  -- nothing but what is alike is equal
  beq_iff_alike : ∀ a b, ok a → ok b → (a == b ↔ alike a b)
  beq_congr : ∀ a a' b b', ok a → ok a' → ok b → ok b' → alike a a' → alike b b' →
    (a == b) = (a' == b')
  digest_eq : ∀ finish a b, ok a → ok b → a == b → digest finish a = digest finish b

theorem LawfulEquality.of_equivalence {α : Type} [BEq α] {ok : α → Prop} {alike : α → α → Prop}
    {digest : (List Token → UInt64) → α → List Token} (hrefl : ∀ {a}, ok a → a == a)
    (hsymm : ∀ {a b : α}, ok a → a == b → b == a)
    (htrans : ∀ {a b c : α}, a == b → b == c → a == c)
    (halike : ∀ {a b}, ok a → (a == b ↔ alike a b))
    (hdigest : ∀ finish {a b}, ok a → a == b → digest finish a = digest finish b) :
    LawfulEquality ok alike digest where
  refl _ ha := hrefl ha
  symm _ _ ha _ := hsymm ha
  trans _ _ _ _ _ _ := htrans
  beq_iff_alike _ _ ha _ := halike ha
  beq_congr a a' b b' ha _ hb _ haa' hbb' := by
    have hleft := (halike ha).mpr haa'
    have hright := (halike hb).mpr hbb'
    rw [Bool.eq_iff_iff]
    constructor
    · exact fun h => htrans (hsymm ha hleft) (htrans h hright)
    · exact fun h => htrans hleft (htrans h (hsymm hb hright))
  digest_eq finish _ _ ha _ := hdigest finish ha

-- Whatever is made of the pieces of a single member, equal values and equal occurrences always end
-- up in the same bucket.
theorem Value.lawful_equality :
    LawfulEquality Value.WellFormed Value.Alike (fun finish v => v.digest finish) ∧
      LawfulEquality Occurrence.WellFormed Occurrence.Alike (fun finish o => o.digest finish) := by
  constructor
  · exact .of_equivalence beq_refl beq_symm beq_trans beq_iff_alike digest_of_beq
  · exact .of_equivalence Occurrence.beq_refl Occurrence.beq_symm Occurrence.beq_trans
      Occurrence.beq_iff_alike fun finish _ _ => Occurrence.digest_of_beq finish

-- Inside an array, an annotation with a double that is no number and one that is below zero by its
-- sign only.
theorem Value.lawful_equality_reordered :
    let a : String × Value := ("a", .double ⟨0x7FF8000000000000⟩)
    let b : String × Value := ("b", .double ⟨0x8000000000000000⟩)
    let v := Value.array [.nested ⟨"Tag", [a, b], []⟩]
    let w := Value.array [.nested ⟨"Tag", [b, a], [("c", .int 1)]⟩]
    v.WellFormed ∧ w.WellFormed ∧ v.Alike w ∧ v == w ∧
      ∀ finish, v.digest finish = w.digest finish := by
  intro a b v w
  have hv : v.WellFormed := by decide
  have hw : w.WellFormed := by decide
  have hvalues : List.Forall₂ Value.Alike [a.2, b.2] [a.2, b.2] :=
    .cons (.scalar rfl) (.cons (.scalar rfl) .nil)
  have halike : v.Alike w := .array (.cons (.nested rfl hvalues (.swap b a [])) .nil)
  have heq := (Value.lawful_equality.1.beq_iff_alike v w hv hw).mpr halike
  exact ⟨hv, hw, halike, heq, fun finish => Value.lawful_equality.1.digest_eq finish v w hv hw heq⟩

end LayeredAnnotations
