import LayeredAnnotations.Json.Decoder
import LayeredAnnotations.Json.Encoder
import LayeredAnnotations.Proofs.Json.Reading
import LayeredAnnotations.Proofs.Value.Likeness

namespace LayeredAnnotations

-- A list is decoded as a whole, or not at all if there is one item that is not.
theorem mapM_eq_ite {α β : Type} {f : α → Option β} {g : α → β} {p : α → Prop} [DecidablePred p]
    {as : List α} (h : ∀ a ∈ as, f a = if p a then some (g a) else none) :
    as.mapM f = if ∀ a ∈ as, p a then some (as.map g) else none := by
  induction as with
  | nil => simp
  | cons a as ih =>
    obtain ⟨ha, has⟩ := List.forall_mem_cons.mp h
    rw [List.mapM_cons, ha, ih has]
    by_cases hp : p a
    · by_cases hrest : ∀ a ∈ as, p a
      · rw [if_pos hp, if_pos hrest, if_pos (List.forall_mem_cons.mpr ⟨hp, hrest⟩)]
        rfl
      · rw [if_pos hp, if_neg hrest, if_neg fun hall => hrest (List.forall_mem_cons.mp hall).2]
        rfl
    · rw [if_neg hp, if_neg fun hall => hp (List.forall_mem_cons.mp hall).1]
      rfl

theorem int32?_toInt (n : Int32) : int32? n.toInt = some n := by
  rw [int32?, if_pos ⟨n.le_toInt, n.toInt_lt⟩, Int32.ofInt_toInt]

theorem int64?_toInt (n : Int64) : int64? n.toInt = some n := by
  rw [int64?, if_pos ⟨n.le_toInt, n.toInt_lt⟩, Int64.ofInt_toInt]

namespace Json

theorem integer?_ofInt (n : Int) : integer? (.ofInt n) = some n := by
  have hvalue : digitsValue (Nat.toDigits 10 n.natAbs) = n.natAbs := by
    rw [digitsValue_eq]
    exact Nat.ofDigitChars_toDigits (by decide) (by decide)
  simp only [integer?, Numeral.ofInt, hvalue]
  by_cases hneg : n < 0
  · simp [hneg, hneg.ne, abs_of_neg hneg]
  · simp [hneg, abs_of_nonneg (not_lt.mp hneg)]

-- What was put into an object under distinct keys is decoded entry by entry.
theorem map?_object {α β : Type} (encode : α → Tree) (decode : Tree → Option β) (m : Keyed α) :
    map? decode (.object (m.map fun entry => (some entry.1, encode entry.2))) =
      (m.mapM fun entry => (decode (encode entry.2)).map (entry.1, ·)).map Keyed.ofEntries := by
  simp only [map?, List.mapM_map, Option.map_eq_bind]
  rfl

namespace Tree

mutual

-- How many objects and lists are open at once, where they are the most.
def nesting : Tree → Nat
  | .array items => nestingIn items + 1
  | .object entries => nestingAmong entries + 1
  | _ => 0
termination_by structural t => t

def nestingIn : List Tree → Nat
  | [] => 0
  | t :: rest => max t.nesting (nestingIn rest)
termination_by structural ts => ts

def nestingAmong : List (Option String × Tree) → Nat
  | [] => 0
  | (_, t) :: rest => max t.nesting (nestingAmong rest)
termination_by structural entries => entries

end

theorem nestingIn_le_iff (items : List Tree) (n : Nat) :
    nestingIn items ≤ n ↔ ∀ t ∈ items, t.nesting ≤ n := by
  induction items with
  | nil => simp [nestingIn]
  | cons t rest ih => rw [nestingIn, Nat.max_le, ih, List.forall_mem_cons]

theorem nestingAmong_le_iff (entries : List (Option String × Tree)) (n : Nat) :
    nestingAmong entries ≤ n ↔ ∀ entry ∈ entries, entry.2.nesting ≤ n := by
  induction entries with
  | nil => simp [nestingAmong]
  | cons entry rest ih => rw [nestingAmong, Nat.max_le, ih, List.forall_mem_cons]

@[simp] theorem nesting_array_le_succ (items : List Tree) (n : Nat) :
    (array items).nesting ≤ n + 1 ↔ ∀ t ∈ items, t.nesting ≤ n := by
  rw [nesting, Nat.add_le_add_iff_right, nestingIn_le_iff]

@[simp] theorem nesting_object_le_succ (entries : List (Option String × Tree)) (n : Nat) :
    (object entries).nesting ≤ n + 1 ↔ ∀ entry ∈ entries, entry.2.nesting ≤ n := by
  rw [nesting, Nat.add_le_add_iff_right, nestingAmong_le_iff]

theorem Faithful.of_fields {fields : List (String × Tree)}
    (h : ∀ field ∈ fields, field.2.Faithful) : (Json.object fields).Faithful :=
  .object (List.forall_mem_map.mpr fun _ _ => rfl) (List.forall_mem_map.mpr h)

theorem Faithful.of_field {t : Tree} (h : t.Faithful) (name : String) :
    (Json.object [(name, t)]).Faithful :=
  .of_fields (List.forall_mem_singleton.mpr h)

end Tree

end Json

namespace Value

mutual

-- Whether there is a double, also inside arrays and the explicit members of nested annotations.
def hasDouble : Value → Bool
  | .double _ => true
  | .array items => hasDoubleIn items
  | .nested ⟨_, members, _⟩ => hasDoubleAmong members
  | _ => false
termination_by structural v => v

def hasDoubleIn : List Value → Bool
  | [] => false
  | v :: rest => v.hasDouble || hasDoubleIn rest
termination_by structural vs => vs

def hasDoubleAmong : List (String × Value) → Bool
  | [] => false
  | (_, v) :: rest => v.hasDouble || hasDoubleAmong rest
termination_by structural m => m

end

mutual

-- The same value where no annotation inside has defaults, however deep it is.
def withoutDefaults : Value → Value
  | .array items => .array (withoutDefaultsIn items)
  | .nested ⟨name, members, _⟩ => .nested ⟨name, withoutDefaultsAmong members, []⟩
  | v => v
termination_by structural v => v

def withoutDefaultsIn : List Value → List Value
  | [] => []
  | v :: rest => v.withoutDefaults :: withoutDefaultsIn rest
termination_by structural vs => vs

def withoutDefaultsAmong : List (String × Value) → List (String × Value)
  | [] => []
  | (key, v) :: rest => (key, v.withoutDefaults) :: withoutDefaultsAmong rest
termination_by structural m => m

end

end Value

namespace Occurrence

def hasDouble (o : Occurrence) : Bool := Value.hasDoubleAmong o.members

def withoutDefaults (o : Occurrence) : Occurrence :=
  ⟨o.name, Value.withoutDefaultsAmong o.members, []⟩

end Occurrence

namespace Value

theorem hasDoubleIn_eq_any (vs : List Value) : hasDoubleIn vs = vs.any hasDouble := by
  induction vs with
  | nil => rfl
  | cons v rest ih => rw [hasDoubleIn, List.any_cons, ih]

theorem hasDoubleAmong_eq_any (m : Members) :
    hasDoubleAmong m = m.any fun entry => entry.2.hasDouble := by
  induction m with
  | nil => rfl
  | cons entry rest ih => rw [hasDoubleAmong, List.any_cons, ih]

theorem withoutDefaultsIn_eq_map (vs : List Value) :
    withoutDefaultsIn vs = vs.map withoutDefaults := by
  induction vs with
  | nil => rfl
  | cons v rest ih => rw [withoutDefaultsIn, List.map_cons, ih]

theorem withoutDefaultsAmong_eq_map (m : Members) :
    withoutDefaultsAmong m = m.map fun entry => (entry.1, entry.2.withoutDefaults) := by
  induction m with
  | nil => rfl
  | cons entry rest ih => rw [withoutDefaultsAmong, List.map_cons, ih]

theorem toTrees_eq_map (vs : List Value) : toTrees vs = vs.map toTree := by
  induction vs with
  | nil => rfl
  | cons v rest ih => rw [toTrees, List.map_cons, ih]

theorem toEntries_eq_map (m : Members) :
    toEntries m = m.map fun entry => (some entry.1, entry.2.toTree) := by
  induction m with
  | nil => rfl
  | cons entry rest ih => rw [toEntries, List.map_cons, ih]

theorem toTree_nested (o : Occurrence) :
    (nested o).toTree = Json.object [("Annotation", o.toTree)] := by
  obtain ⟨name, members, defaults⟩ := o
  rfl

@[simp] theorem hasDouble_array (items : List Value) :
    (array items).hasDouble = false ↔ ∀ v ∈ items, v.hasDouble = false := by
  rw [hasDouble, hasDoubleIn_eq_any]
  simp

@[simp] theorem withoutDefaults_array (items : List Value) :
    (array items).withoutDefaults = array (items.map withoutDefaults) :=
  congrArg array (withoutDefaultsIn_eq_map items)

@[simp] theorem withoutDefaults_nested (o : Occurrence) :
    (nested o).withoutDefaults = nested o.withoutDefaults := by
  obtain ⟨name, members, defaults⟩ := o
  rfl

theorem hasDouble_nested (o : Occurrence) : (nested o).hasDouble = o.hasDouble := by
  obtain ⟨name, members, defaults⟩ := o
  rfl

theorem toTree_array (items : List Value) :
    (array items).toTree = Json.object [("Array", .array (items.map toTree))] := by
  rw [toTree, toTrees_eq_map]

end Value

namespace Occurrence

theorem hasDouble_eq_false_iff (o : Occurrence) :
    o.hasDouble = false ↔ ∀ entry ∈ o.members, entry.2.hasDouble = false := by
  rw [hasDouble, Value.hasDoubleAmong_eq_any]
  simp

theorem faithful_toTree {o : Occurrence} (h : ∀ entry ∈ o.members, entry.2.toTree.Faithful) :
    o.toTree.Faithful := by
  refine .of_fields (List.forall_mem_cons.mpr ⟨.string o.name, List.forall_mem_singleton.mpr ?_⟩)
  rw [Value.toEntries_eq_map]
  exact .object (List.forall_mem_map.mpr fun _ _ => rfl) (List.forall_mem_map.mpr h)

end Occurrence

namespace Value

theorem faithful_toTree {v : Value} (h : v.hasDouble = false) : v.toTree.Faithful := by
  induction v with
  | bool b => exact .of_field (.bool b) "Bool"
  | int n => exact .of_field (.number n.toInt) "Int"
  | long n => exact .of_field (.number n.toInt) "Long"
  | double d => exact nomatch h
  | string s => exact .of_field (.string s) "String"
  | type t => exact .of_field (.of_field (.string t.name) "name") "Class"
  | enum name => exact .of_field (.string name) "Enum"
  | array items ih =>
    rw [hasDouble_array] at h
    rw [toTree_array]
    refine .of_field (.array (List.forall_mem_map.mpr ?_)) "Array"
    exact fun v hv => ih v hv (h v hv)
  | nested o ih =>
    rw [hasDouble_nested, Occurrence.hasDouble_eq_false_iff] at h
    rw [toTree_nested]
    refine .of_field (Occurrence.faithful_toTree ?_) "Annotation"
    exact fun entry hentry => ih entry hentry (h entry hentry)

theorem ofTree?_array (depth : Nat) (items : List Json.Tree) :
    ofTree? (depth + 2) (Json.object [("Array", .array items)]) =
      (items.mapM fun item => ofTree? depth item).map array := rfl

theorem ofTree?_nested (depth : Nat) (t : Json.Tree) :
    ofTree? (depth + 1) (Json.object [("Annotation", t)]) =
      (Occurrence.ofTree? depth t).map nested := rfl

-- Whether a value is decoded at every limit that leaves room for it, and at no other.
def Restored (v : Value) : Prop :=
  ∀ depth, ofTree? depth v.toTree =
    if v.toTree.nesting ≤ depth then some v.withoutDefaults else none

end Value

namespace Occurrence

theorem ofTree?_succ (depth : Nat) (name : String) (t : Json.Tree) :
    ofTree? (depth + 1)
        (Json.object [("annotation_name", Json.string name), ("values", t)]) =
      (membersOfTree? depth t).map fun members => ⟨name, members, []⟩ := by
  have hfields : Json.fields? ["annotation_name", "values"]
      (Json.object [("annotation_name", Json.string name), ("values", t)]) =
      some [some (Json.string name), some t] := rfl
  rw [ofTree?, hfields, Option.map_eq_bind]
  rfl

end Occurrence

namespace Members

theorem ofTree?_toEntries {m : Members} (hdistinct : m.Distinct)
    (h : ∀ entry ∈ m, entry.2.Restored) (depth : Nat) :
    membersOfTree? depth (.object (Value.toEntries m)) =
      if (Json.Tree.object (Value.toEntries m)).nesting ≤ depth then
        some (Value.withoutDefaultsAmong m)
      else none := by
  cases depth with
  | zero => rfl
  | succ depth =>
    have hdecode : ∀ entry ∈ m, (Value.ofTree? depth entry.2.toTree).map (entry.1, ·) =
        if entry.2.toTree.nesting ≤ depth then some (entry.1, entry.2.withoutDefaults)
        else none := by
      intro entry hentry
      rw [h entry hentry depth]
      split <;> rfl
    have hkeys : Keyed.Distinct (m.map fun entry => (entry.1, entry.2.withoutDefaults)) := by
      rw [Keyed.Distinct, Keyed.keys, List.map_map]
      exact hdistinct
    rw [Value.toEntries_eq_map, Value.withoutDefaultsAmong_eq_map, membersOfTree?, Json.map?_object,
      mapM_eq_ite hdecode]
    simp only [Json.Tree.nesting_object_le_succ, List.forall_mem_map]
    split
    · exact congrArg some (Keyed.ofEntries_of_distinct hkeys)
    · rfl

end Members

namespace Occurrence

theorem nesting_toTree_le_succ (o : Occurrence) (n : Nat) :
    o.toTree.nesting ≤ n + 1 ↔ (Json.Tree.object (Value.toEntries o.members)).nesting ≤ n := by
  rw [toTree, Json.object, Json.Tree.nesting_object_le_succ]
  simp [Json.string, Json.Tree.nesting]

theorem ofTree?_toTree {o : Occurrence} (hdistinct : Keyed.Distinct o.members)
    (h : ∀ entry ∈ o.members, entry.2.Restored) (depth : Nat) :
    ofTree? depth o.toTree =
      if o.toTree.nesting ≤ depth then some o.withoutDefaults else none := by
  cases depth with
  | zero => rfl
  | succ depth =>
    simp only [nesting_toTree_le_succ]
    rw [toTree, ofTree?_succ, Members.ofTree?_toEntries hdistinct h]
    split <;> rfl

end Occurrence

namespace Value

theorem Restored.of_field {v : Value} {kind : String} {t : Json.Tree}
    (htree : v.toTree = Json.object [(kind, t)])
    (h : ∀ depth, ofTree? (depth + 1) (Json.object [(kind, t)]) =
      if t.nesting ≤ depth then some v.withoutDefaults else none) : v.Restored := by
  intro depth
  rw [htree]
  cases depth with
  | zero => rfl
  | succ depth =>
    rw [h depth]
    simp only [Json.object, List.map_cons, List.map_nil, Json.Tree.nesting_object_le_succ,
      List.forall_mem_singleton]

-- Only arrays and annotations have anything inside for which there may be no room.
theorem restored {v : Value} (hdouble : v.hasDouble = false) (h : v.WellFormed) : v.Restored := by
  induction v with
  | bool b => exact .of_field rfl fun _ => rfl
  | int n =>
    refine .of_field rfl fun depth => ?_
    change ((Json.integer? (.ofInt n.toInt)).bind int32?).map int = some (int n)
    rw [Json.integer?_ofInt, Option.bind_some, int32?_toInt]
    rfl
  | long n =>
    refine .of_field rfl fun depth => ?_
    change ((Json.integer? (.ofInt n.toInt)).bind int64?).map long = some (long n)
    rw [Json.integer?_ofInt, Option.bind_some, int64?_toInt]
    rfl
  | double d => exact nomatch hdouble
  | string s => exact .of_field rfl fun _ => rfl
  | type t => exact .of_field rfl fun depth => by cases depth <;> rfl
  | enum name => exact .of_field rfl fun _ => rfl
  | array items ih =>
    rw [hasDouble_array] at hdouble
    rw [wellFormed_array] at h
    refine .of_field (toTree_array items) fun depth => ?_
    cases depth with
    | zero => rfl
    | succ depth =>
      have hdecode : ∀ v ∈ items, ofTree? depth v.toTree =
          if v.toTree.nesting ≤ depth then some v.withoutDefaults else none :=
        fun v hv => ih v hv (hdouble v hv) (h v hv) depth
      rw [ofTree?_array, List.mapM_map, withoutDefaults_array]
      simp only [Json.Tree.nesting_array_le_succ, List.forall_mem_map, Function.comp_def,
        mapM_eq_ite hdecode]
      split <;> rfl
  | nested o ih =>
    rw [hasDouble_nested, Occurrence.hasDouble_eq_false_iff] at hdouble
    rw [wellFormed_nested] at h
    refine .of_field (toTree_nested o) fun depth => ?_
    have hmembers : ∀ entry ∈ o.members, entry.2.Restored :=
      fun entry hentry => ih entry hentry (hdouble entry hentry) (h.1.2 entry hentry)
    rw [ofTree?_nested, Occurrence.ofTree?_toTree h.1.1 hmembers, withoutDefaults_nested]
    split <;> rfl

-- Defaults do not count when values are compared.
theorem alike_withoutDefaults (v : Value) : v.Alike v.withoutDefaults := by
  induction v with
  | array items ih =>
    rw [withoutDefaults_array]
    exact .array (List.forall₂_map_right_iff.mpr (List.forall₂_same.mpr ih))
  | nested o ih =>
    rw [withoutDefaults_nested, nested_alike_iff]
    refine ⟨o.withoutDefaults, rfl, rfl, o.withoutDefaults.members, ?_, .refl _⟩
    rw [Occurrence.withoutDefaults, withoutDefaultsAmong_eq_map]
    refine List.forall₂_map_right_iff.mpr (List.forall₂_same.mpr ?_)
    exact fun entry hentry => ⟨rfl, ih entry hentry⟩
  | _ => exact .scalar rfl

end Value

namespace Occurrence

theorem alike_withoutDefaults (o : Occurrence) : o.Alike o.withoutDefaults := by
  rw [Alike, ← Value.withoutDefaults_nested]
  exact Value.alike_withoutDefaults (.nested o)

-- What was stored without doubles is read back with its names, its members and their order, but
-- without defaults, as long as it is not nested too deep.
theorem ofJson?_toJson {o : Occurrence} (h : o.WellFormed) (hdouble : o.hasDouble = false) :
    ofJson? o.toJson = (if o.toTree.nesting ≤ 127 then some o.withoutDefaults else none) ∧
      o.withoutDefaults == o := by
  rw [hasDouble_eq_false_iff] at hdouble
  constructor
  · have hread : Json.read? o.toTree.text = some o.toTree :=
      Json.read?_text (faithful_toTree fun entry hentry =>
        Value.faithful_toTree (hdouble entry hentry))
    rw [ofJson?, toJson, hread, Option.bind_some]
    exact ofTree?_toTree h.1.1 (fun entry hentry =>
      Value.restored (hdouble entry hentry) (h.1.2 entry hentry)) Json.depthLimit
  · exact beq_symm h ((beq_iff_alike h).mpr (alike_withoutDefaults o))

-- Defaults at two levels, in front of an empty array, and texts that have to be escaped.
theorem ofJson?_toJson_nested :
    let column (defaults : Members) : Value :=
      .nested ⟨"Column", [("\x01", .long (-0x8000000000000000)), ("\"", .string "C:\\\n")],
        defaults⟩
    let table (columns defaults : Members) : Occurrence :=
      ⟨"Table", [("columns", .array [column columns, .array []]), ("key", .type ⟨"int[]"⟩),
        ("kind", .enum "TEMPORARY"), ("size", .int 0), ("open", .bool true)], defaults⟩
    let o := table [("\"", .double ⟨0⟩)] [("size", .int 1)]
    o.WellFormed ∧ o.hasDouble = false ∧ o.toTree.nesting = 8 ∧
      ofJson? o.toJson = some (table [] []) ∧ table [] [] == o := by
  intro column table o
  have h : o.WellFormed := by decide
  have hdouble : o.hasDouble = false := by decide
  have hnesting : o.toTree.nesting = 8 := by decide
  obtain ⟨hread, heq⟩ := ofJson?_toJson h hdouble
  rw [if_pos (by rw [hnesting]; decide)] at hread
  exact ⟨h, hdouble, hnesting, hread, heq⟩

end Occurrence

end LayeredAnnotations
