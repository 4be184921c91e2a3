import LayeredAnnotations.Proofs.WellFormed
import LayeredAnnotations.Value.Digest
import Mathlib.Data.List.Forall2
import Mathlib.Data.List.Nodup
import Mathlib.Data.List.Perm.Basic

namespace LayeredAnnotations

theorem forall₂_imp_of_mem {α β : Type} {R S : α → β → Prop} {as : List α} {bs : List β}
    (h : ∀ a ∈ as, ∀ b, R a b → S a b) (hab : List.Forall₂ R as bs) : List.Forall₂ S as bs := by
  induction hab with
  | nil => exact .nil
  | @cons a b as bs hhead _ ih =>
    obtain ⟨ha, has⟩ := List.forall_mem_cons.mp h
    exact .cons (ha b hhead) (ih has)

namespace Keyed

variable {α : Type} {R : α → α → Prop}

-- Whether every entry has a partner under the same key.
def CoveredBy (R : α → α → Prop) (m other : Keyed α) : Prop :=
  ∀ entry ∈ m, ∃ a, other.lookup entry.1 = some a ∧ R entry.2 a

def Partners (R : α → α → Prop) (entry other : String × α) : Prop :=
  entry.1 = other.1 ∧ R entry.2 other.2

theorem keys_of_forall₂ {m other : Keyed α} (h : List.Forall₂ (Partners R) m other) :
    m.keys = other.keys := by
  induction h with
  | nil => rfl
  | cons hentry hrest ih => exact congrArg₂ List.cons hentry.1 ih

theorem exists_forall₂_of_coveredBy {m other : Keyed α} (h : CoveredBy R m other) :
    ∃ found, List.Forall₂ (Partners R) m found ∧ found ⊆ other := by
  induction m with
  | nil => exact ⟨[], .nil, List.nil_subset other⟩
  | cons entry rest ih =>
    obtain ⟨hentry, hrest⟩ := List.forall_mem_cons.mp h
    obtain ⟨a, hlookup, ha⟩ := hentry
    obtain ⟨found, hfound, hsub⟩ := ih hrest
    exact ⟨(entry.1, a) :: found, .cons ⟨rfl, ha⟩ hfound,
      List.cons_subset.mpr ⟨mem_of_lookup hlookup, hsub⟩⟩

-- Of two maps of one size, neither has an entry that is left without a partner.
theorem exists_perm_of_coveredBy {m other : Keyed α} (hm : m.Distinct)
    (hlength : m.length = other.length) (h : CoveredBy R m other) :
    ∃ found, List.Forall₂ (Partners R) m found ∧ found.Perm other := by
  obtain ⟨found, hfound, hsub⟩ := exists_forall₂_of_coveredBy h
  -- two entries of `m` cannot share a partner, as their keys differ
  have hdistinct : found.Nodup := by
    apply List.Nodup.of_map (·.1)
    rw [Distinct, keys_of_forall₂ hfound] at hm
    exact hm
  refine ⟨found, hfound, (List.subperm_of_subset hdistinct hsub).perm_of_length_le ?_⟩
  exact Nat.le_of_eq (hlength.symm.trans hfound.length_eq)

theorem exists_partner_of_mem {m other : Keyed α} (h : List.Forall₂ (Partners R) m other) :
    ∀ entry ∈ other, ∃ a, (entry.1, a) ∈ m ∧ R a entry.2 := by
  induction h with
  | nil => exact List.forall_mem_nil _
  | @cons entry entry' rest rest' hentry _ ih =>
    refine List.forall_mem_cons.mpr ⟨⟨entry.2, ?_, hentry.2⟩, ?_⟩
    · rw [← hentry.1]
      exact List.mem_cons_self
    · intro e he
      obtain ⟨a, hmem, ha⟩ := ih e he
      exact ⟨a, List.mem_cons_of_mem entry hmem, ha⟩

theorem coveredBy_swap {m other : Keyed α} (hm : m.Distinct) (hlength : m.length = other.length)
    (h : CoveredBy R m other) : CoveredBy (fun a b => R b a) other m := by
  obtain ⟨found, hfound, hperm⟩ := exists_perm_of_coveredBy hm hlength h
  intro entry hentry
  obtain ⟨a, hmem, ha⟩ := exists_partner_of_mem hfound entry (hperm.mem_iff.mpr hentry)
  exact ⟨a, lookup_of_mem hm hmem, ha⟩

end Keyed

namespace Value

-- Whether a value has values inside.
def isComposite : Value → Bool
  | .array _ => true
  | .nested _ => true
  | _ => false

theorem beqItems_iff (as bs : List Value) :
    beqItems as bs ↔ List.Forall₂ (fun a b => a == b) as bs := by
  induction as generalizing bs with
  | nil => cases bs <;> simp [beqItems]
  | cons a as ih =>
    cases bs with
    | nil => simp [beqItems]
    | cons b bs => rw [beqItems, Bool.and_eq_true, ih, List.forall₂_cons]; rfl

theorem includedIn_iff (as bs : Members) :
    includedIn as bs ↔ Keyed.CoveredBy (fun a b => a == b) as bs := by
  induction as with
  | nil => simp [includedIn, Keyed.CoveredBy]
  | cons entry rest ih =>
    rw [includedIn, Bool.and_eq_true, ih, Keyed.CoveredBy, Keyed.CoveredBy, List.forall_mem_cons]
    refine and_congr_left fun _ => ?_
    cases List.lookup entry.1 bs with
    | none => simp
    | some b => simp; rfl

theorem array_beq_iff (items : List Value) (w : Value) :
    (array items == w) ↔ ∃ items', w = array items' ∧
      List.Forall₂ (fun a b => a == b) items items' := by
  cases w with
  | array items' =>
    simp only [array.injEq, exists_eq_left', ← beqItems_iff]
    rfl
  | _ => simp [BEq.beq, beq]

theorem nested_beq_iff (o : Occurrence) (w : Value) :
    (nested o == w) ↔ ∃ p, w = nested p ∧ o == p := by
  obtain ⟨name, members, defaults⟩ := o
  cases w with
  | nested p =>
    obtain ⟨name', members', defaults'⟩ := p
    simp only [nested.injEq, exists_eq_left']
    rfl
  | _ => simp [BEq.beq, beq]

-- Only inside composite values is there anything that equality does not look at.
theorem eq_of_beq {a b : Value} (h : a == b) (ha : a.isComposite = false) : a = b := by
  cases a with
  | array items => exact nomatch ha
  | nested o => exact nomatch ha
  | _ => cases b <;> simp_all [BEq.beq, beq]

end Value

theorem Occurrence.beq_iff (o p : Occurrence) :
    (o == p) ↔ o.name = p.name ∧ o.members.length = p.members.length ∧
      Keyed.CoveredBy (fun a b => a == b) o.members p.members := by
  rw [← Value.includedIn_iff]
  simp only [BEq.beq, Occurrence.beq, Bool.and_eq_true, and_assoc]
  simp

namespace Occurrence

variable {o p q : Occurrence}

private theorem beq_refl_of_members (hdistinct : Keyed.Distinct o.members)
    (h : ∀ entry ∈ o.members, entry.2 == entry.2) : o == o := by
  rw [beq_iff]
  refine ⟨rfl, rfl, ?_⟩
  intro entry hentry
  exact ⟨entry.2, Keyed.lookup_of_mem hdistinct hentry, h entry hentry⟩

private theorem beq_trans_of_members
    (h : ∀ entry ∈ o.members, ∀ b c : Value, entry.2 == b → b == c → entry.2 == c)
    (hop : o == p) (hpq : p == q) : o == q := by
  rw [beq_iff] at hop hpq ⊢
  obtain ⟨hname, hlength, hmembers⟩ := hop
  obtain ⟨hname', hlength', hmembers'⟩ := hpq
  refine ⟨hname.trans hname', hlength.trans hlength', ?_⟩
  intro entry hentry
  -- what is found in `p` is one of its entries, and looked for in `q` itself
  obtain ⟨b, hb, hbeq⟩ := hmembers entry hentry
  obtain ⟨c, hc, hbeq'⟩ := hmembers' _ (Keyed.mem_of_lookup hb)
  exact ⟨c, hc, h entry hentry b c hbeq hbeq'⟩

private theorem beq_symm_of_members (hdistinct : Keyed.Distinct o.members)
    (h : ∀ entry ∈ o.members, ∀ b : Value, entry.2 == b → b == entry.2) (hop : o == p) :
    p == o := by
  rw [beq_iff] at hop ⊢
  obtain ⟨hname, hlength, hmembers⟩ := hop
  refine ⟨hname.symm, hlength.symm, ?_⟩
  intro entry hentry
  obtain ⟨a, ha, hbeq⟩ := Keyed.coveredBy_swap hdistinct hlength hmembers entry hentry
  exact ⟨a, ha, h (entry.1, a) (Keyed.mem_of_lookup ha) entry.2 hbeq⟩

end Occurrence

namespace Value

private theorem forall₂_beq_trans {as bs cs : List Value}
    (h : ∀ a ∈ as, ∀ b c : Value, a == b → b == c → a == c)
    (hab : List.Forall₂ (fun a b => a == b) as bs) (hbc : List.Forall₂ (fun b c => b == c) bs cs) :
    List.Forall₂ (fun a c => a == c) as cs := by
  induction hab generalizing cs with
  | nil => exact hbc
  | @cons a b as bs hhead _ ih =>
    cases hbc with
    | @cons _ c _ cs hhead' htail' =>
      obtain ⟨ha, has⟩ := List.forall_mem_cons.mp h
      exact .cons (ha b c hhead hhead') (ih has htail')

-- A value in which a member is given twice may differ from itself.
theorem beq_refl {v : Value} (h : v.WellFormed) : v == v := by
  induction v with
  | array items ih =>
    have hitems := (wellFormed_array items).mp h
    refine (array_beq_iff items _).mpr ⟨items, rfl, List.forall₂_same.mpr ?_⟩
    exact fun v hv => ih v hv (hitems v hv)
  | nested o ih =>
    obtain ⟨⟨hdistinct, hmembers⟩, -⟩ := (wellFormed_nested o).mp h
    refine (nested_beq_iff o _).mpr ⟨o, rfl, Occurrence.beq_refl_of_members hdistinct ?_⟩
    exact fun entry hentry => ih entry hentry (hmembers entry hentry)
  | _ => simp [BEq.beq, beq]

theorem beq_trans {a b c : Value} (hab : a == b) (hbc : b == c) : a == c := by
  induction a generalizing b c with
  | array items ih =>
    obtain ⟨items', rfl, hitems⟩ := (array_beq_iff items b).mp hab
    obtain ⟨items'', rfl, hitems'⟩ := (array_beq_iff items' c).mp hbc
    refine (array_beq_iff items _).mpr ⟨items'', rfl, ?_⟩
    exact forall₂_beq_trans (fun v hv _ _ => ih v hv) hitems hitems'
  | nested o ih =>
    obtain ⟨p, rfl, hop⟩ := (nested_beq_iff o b).mp hab
    obtain ⟨q, rfl, hpq⟩ := (nested_beq_iff p c).mp hbc
    refine (nested_beq_iff o _).mpr ⟨q, rfl, ?_⟩
    exact Occurrence.beq_trans_of_members (fun entry hentry _ _ => ih entry hentry) hop hpq
  | _ =>
    obtain rfl := eq_of_beq hab rfl
    exact hbc

theorem beq_symm {a b : Value} (h : a.WellFormed) (hab : a == b) : b == a := by
  induction a generalizing b with
  | array items ih =>
    have hwell := (wellFormed_array items).mp h
    obtain ⟨items', rfl, hitems⟩ := (array_beq_iff items b).mp hab
    refine (array_beq_iff items' _).mpr ⟨items, rfl, List.Forall₂.flip ?_⟩
    exact forall₂_imp_of_mem (fun v hv _ hbeq => ih v hv (hwell v hv) hbeq) hitems
  | nested o ih =>
    obtain ⟨⟨hdistinct, hmembers⟩, -⟩ := (wellFormed_nested o).mp h
    obtain ⟨p, rfl, hop⟩ := (nested_beq_iff o b).mp hab
    refine (nested_beq_iff p _).mpr ⟨o, rfl, Occurrence.beq_symm_of_members hdistinct ?_ hop⟩
    exact fun entry hentry _ hbeq => ih entry hentry (hmembers entry hentry) hbeq
  | _ =>
    obtain rfl := eq_of_beq hab rfl
    exact hab

end Value

section Digest

variable (finish : List Token → UInt64)

namespace Value

theorem digest_nested (o : Occurrence) :
    (nested o).digest finish = .kind 8 :: o.digest finish := by
  obtain ⟨name, members, defaults⟩ := o
  rfl

theorem digestItems_of_forall₂ {as bs : List Value}
    (h : List.Forall₂ (fun a b => a.digest finish = b.digest finish) as bs) :
    digestItems finish as = digestItems finish bs := by
  induction h with
  | nil => rfl
  | cons hhead _ ih => rw [digestItems, digestItems, hhead, ih]

theorem digestSum_of_forall₂ {m other : Members}
    (h : List.Forall₂ (Keyed.Partners fun a b => a.digest finish = b.digest finish) m other) :
    digestSum finish m = digestSum finish other := by
  induction h with
  | nil => rfl
  | cons hentry _ ih => rw [digestSum, digestSum, hentry.1, hentry.2, ih]

theorem digestSum_of_perm {m other : Members} (h : m.Perm other) :
    digestSum finish m = digestSum finish other := by
  induction h with
  | nil => rfl
  | cons entry _ ih => rw [digestSum, digestSum, ih]
  | swap entry entry' rest =>
    simp only [digestSum]
    rw [← UInt64.add_assoc, ← UInt64.add_assoc, UInt64.add_comm (finish _)]
  | trans _ _ ih ih' => exact ih.trans ih'

end Value

private theorem Occurrence.digest_of_members {o p : Occurrence}
    (hdistinct : Keyed.Distinct o.members)
    (h : ∀ entry ∈ o.members, ∀ b : Value, entry.2 == b →
      entry.2.digest finish = b.digest finish) (hop : o == p) :
    o.digest finish = p.digest finish := by
  obtain ⟨hname, hlength, hmembers⟩ := (beq_iff o p).mp hop
  obtain ⟨found, hfound, hperm⟩ := Keyed.exists_perm_of_coveredBy hdistinct hlength hmembers
  have hpartners : List.Forall₂ (Keyed.Partners fun a b => a.digest finish = b.digest finish)
      o.members found := by
    refine forall₂_imp_of_mem ?_ hfound
    exact fun entry hentry other hother => ⟨hother.1, h entry hentry other.2 hother.2⟩
  rw [Occurrence.digest, Occurrence.digest, hname, hlength,
    Value.digestSum_of_forall₂ finish hpartners, Value.digestSum_of_perm finish hperm]

namespace Value

-- Equal values feed the same pieces to a hasher, whatever is made of the pieces of one member.
theorem digest_of_beq {a b : Value} (h : a.WellFormed) (hab : a == b) :
    a.digest finish = b.digest finish := by
  induction a generalizing b with
  | array items ih =>
    have hwell := (wellFormed_array items).mp h
    obtain ⟨items', rfl, hitems⟩ := (array_beq_iff items b).mp hab
    have hdigests := forall₂_imp_of_mem (fun v hv _ hbeq => ih v hv (hwell v hv) hbeq) hitems
    rw [digest, digest, hitems.length_eq, digestItems_of_forall₂ finish hdigests]
  | nested o ih =>
    obtain ⟨⟨hdistinct, hmembers⟩, -⟩ := (wellFormed_nested o).mp h
    obtain ⟨p, rfl, hop⟩ := (nested_beq_iff o b).mp hab
    rw [digest_nested, digest_nested, Occurrence.digest_of_members finish hdistinct ?_ hop]
    exact fun entry hentry _ hbeq => ih entry hentry (hmembers entry hentry) hbeq
  | _ =>
    obtain rfl := eq_of_beq hab rfl
    rfl

end Value

end Digest

namespace Occurrence

variable {o p q : Occurrence}

theorem beq_trans (hop : o == p) (hpq : p == q) : o == q :=
  beq_trans_of_members (fun _ _ _ _ => Value.beq_trans) hop hpq

theorem beq_symm (h : o.WellFormed) (hop : o == p) : p == o :=
  beq_symm_of_members h.1.1 (fun entry hentry _ => Value.beq_symm (h.1.2 entry hentry)) hop

theorem digest_of_beq (finish : List Token → UInt64) (h : o.WellFormed) (hop : o == p) :
    o.digest finish = p.digest finish :=
  digest_of_members finish h.1.1
    (fun entry hentry _ => Value.digest_of_beq finish (h.1.2 entry hentry)) hop

end Occurrence

end LayeredAnnotations
