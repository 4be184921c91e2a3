import LayeredAnnotations.Proofs.Keyed
import LayeredAnnotations.Value.Reading

namespace LayeredAnnotations

namespace Value

-- What holds of an array if it holds of all elements, and of an annotation if it holds of all
-- explicit members, holds of every value.
@[elab_as_elim, induction_eliminator]
theorem induct {motive : Value → Prop} (bool : ∀ b, motive (.bool b)) (int : ∀ n, motive (.int n))
    (long : ∀ n, motive (.long n)) (double : ∀ d, motive (.double d))
    (string : ∀ s, motive (.string s)) (type : ∀ t, motive (.type t))
    (enum : ∀ name, motive (.enum name))
    (array : ∀ items, (∀ v ∈ items, motive v) → motive (.array items))
    (nested : ∀ o, (∀ entry ∈ o.members, motive entry.2) → motive (.nested o)) (v : Value) :
    motive v :=
  @Value.rec motive (fun o => ∀ entry ∈ o.members, motive entry.2) (fun vs => ∀ v ∈ vs, motive v)
    (fun m => ∀ entry ∈ m, motive entry.2) (fun entry => motive entry.2) bool int long double string
    type enum array nested (fun _ _ _ hmembers _ => hmembers) (List.forall_mem_nil motive)
    (fun _ _ hv hrest => List.forall_mem_cons.mpr ⟨hv, hrest⟩) (List.forall_mem_nil _)
    (fun _ _ hentry hrest => List.forall_mem_cons.mpr ⟨hentry, hrest⟩) (fun _ _ hv => hv) v

mutual

-- No annotation inside a value gives a member twice, nor a default, however deep it is.
def WellFormed : Value → Prop
  | .array items => WellFormedIn items
  | .nested ⟨_, members, defaults⟩ =>
    (Keyed.Distinct members ∧ WellFormedAmong members) ∧
      (Keyed.Distinct defaults ∧ WellFormedAmong defaults)
  | _ => True
termination_by structural v => v

def WellFormedIn : List Value → Prop
  | [] => True
  | v :: rest => v.WellFormed ∧ WellFormedIn rest
termination_by structural vs => vs

def WellFormedAmong : List (String × Value) → Prop
  | [] => True
  | (_, v) :: rest => v.WellFormed ∧ WellFormedAmong rest
termination_by structural m => m

end

mutual

def decWellFormed : (v : Value) → Decidable v.WellFormed
  | .array items => decWellFormedIn items
  | .nested ⟨_, members, defaults⟩ =>
    have := decWellFormedAmong members
    have := decWellFormedAmong defaults
    inferInstanceAs (Decidable ((Keyed.Distinct members ∧ WellFormedAmong members) ∧
      (Keyed.Distinct defaults ∧ WellFormedAmong defaults)))
  | .bool _ | .int _ | .long _ | .double _ | .string _ | .type _ | .enum _ => .isTrue trivial
termination_by structural v => v

def decWellFormedIn : (vs : List Value) → Decidable (WellFormedIn vs)
  | [] => .isTrue trivial
  | v :: rest =>
    have := v.decWellFormed
    have := decWellFormedIn rest
    inferInstanceAs (Decidable (v.WellFormed ∧ WellFormedIn rest))
termination_by structural vs => vs

def decWellFormedAmong : (m : List (String × Value)) → Decidable (WellFormedAmong m)
  | [] => .isTrue trivial
  | (_, v) :: rest =>
    have := v.decWellFormed
    have := decWellFormedAmong rest
    inferInstanceAs (Decidable (v.WellFormed ∧ WellFormedAmong rest))
termination_by structural m => m

end

instance : DecidablePred WellFormed := decWellFormed

theorem wellFormedIn_iff (vs : List Value) : WellFormedIn vs ↔ ∀ v ∈ vs, v.WellFormed := by
  induction vs with
  | nil => simp [WellFormedIn]
  | cons v rest ih => rw [WellFormedIn, ih, List.forall_mem_cons]

theorem wellFormedAmong_iff (m : Members) :
    WellFormedAmong m ↔ ∀ entry ∈ m, entry.2.WellFormed := by
  induction m with
  | nil => simp [WellFormedAmong]
  | cons entry rest ih => rw [WellFormedAmong, ih, List.forall_mem_cons]

end Value

def Members.WellFormed (m : Members) : Prop := m.Distinct ∧ ∀ entry ∈ m, entry.2.WellFormed

def Occurrence.WellFormed (o : Occurrence) : Prop :=
  Members.WellFormed o.members ∧ Members.WellFormed o.defaults

instance (m : Members) : Decidable m.WellFormed :=
  inferInstanceAs (Decidable (m.Distinct ∧ ∀ entry ∈ m, entry.2.WellFormed))

instance (o : Occurrence) : Decidable o.WellFormed :=
  inferInstanceAs (Decidable (Members.WellFormed o.members ∧ Members.WellFormed o.defaults))

namespace Value

@[simp] theorem wellFormed_array (items : List Value) :
    (array items).WellFormed ↔ ∀ v ∈ items, v.WellFormed := by
  rw [WellFormed, wellFormedIn_iff]

@[simp] theorem wellFormed_nested (o : Occurrence) : (nested o).WellFormed ↔ o.WellFormed := by
  obtain ⟨name, members, defaults⟩ := o
  rw [WellFormed, wellFormedAmong_iff, wellFormedAmong_iff]
  rfl

theorem WellFormed.elements {v : Value} (h : v.WellFormed) : ∀ w ∈ v.elements, w.WellFormed := by
  cases v with
  | array items => exact (wellFormed_array items).mp h
  | _ => exact List.forall_mem_singleton.mpr h

theorem WellFormed.scalarNested? {v : Value} {o : Occurrence} (h : v.WellFormed)
    (ho : v.scalarNested? = some o) : o.WellFormed := by
  cases v with
  | nested p =>
    obtain rfl : p = o := Option.some.inj ho
    exact (wellFormed_nested p).mp h
  | _ => exact nomatch ho

end Value

namespace Members

theorem wellFormed_nil : Members.WellFormed [] := ⟨List.nodup_nil, List.forall_mem_nil _⟩

theorem WellFormed.fill {m other : Members} (hm : m.WellFormed) (hother : other.WellFormed) :
    WellFormed (m.fill other) :=
  ⟨Keyed.distinct_fill hm.1 other, Keyed.forall_fill hm.2 hother.2⟩

theorem WellFormed.update {m : Members} (hm : m.WellFormed) (member : String) {fresh : Value}
    {f : Value → Value} (hfresh : fresh.WellFormed) (hf : ∀ v, v.WellFormed → (f v).WellFormed) :
    WellFormed (Keyed.update member fresh f m) :=
  ⟨Keyed.distinct_update member fresh f hm.1, Keyed.forall_update hm.2 member hfresh hf⟩

end Members

namespace Occurrence

theorem WellFormed.withDefaults {o : Occurrence} (h : o.WellFormed) {defaults : Members}
    (hdefaults : defaults.WellFormed) : (o.withDefaults defaults).WellFormed :=
  ⟨h.1, hdefaults⟩

theorem WellFormed.fill {o other : Occurrence} (h : o.WellFormed) (hother : other.WellFormed)
    {defaults : Members} (hdefaults : defaults.WellFormed) : (o.fill other defaults).WellFormed :=
  ⟨h.1.fill hother.1, hdefaults⟩

end Occurrence

end LayeredAnnotations
