import LayeredAnnotations.Proofs.Text.Trimming
import LayeredAnnotations.Proofs.Text.Word
import LayeredAnnotations.Value.Reading

namespace LayeredAnnotations

namespace TypeName

-- A letter of ASCII, underscore or dollar sign, then characters of words and dollar signs.
def IsIdentifier : List Char → Prop
  | [] => False
  | c :: rest => (c.isAlpha ∨ c = '_' ∨ c = '$') ∧ ∀ d ∈ rest, Text.IsWordCharacter d ∨ d = '$'

theorem isIdentifierStart_iff (c : Char) : isIdentifierStart c ↔ c.isAlpha ∨ c = '_' ∨ c = '$' := by
  rw [isIdentifierStart, Bool.or_eq_true, Bool.or_eq_true, beq_iff_eq, beq_iff_eq, or_assoc]

theorem isIdentifierPart_iff (c : Char) :
    isIdentifierPart c ↔ Text.IsWordCharacter c ∨ c = '$' := by
  rw [isIdentifierPart, Bool.or_eq_true, beq_iff_eq, Text.isWord_iff]

theorem isIdentifier_cons_iff (c : Char) (rest : List Char) :
    IsIdentifier (c :: rest) ↔ isIdentifierStart c ∧ ∀ d ∈ rest, isIdentifierPart d := by
  simp only [IsIdentifier, isIdentifierStart_iff, isIdentifierPart_iff]

theorem isIdentifierPart_dot : isIdentifierPart '.' = false := rfl

theorem isIdentifierPart_bracket : isIdentifierPart '[' = false := rfl

def dimensions (count : Nat) : List Char := (List.replicate count ['[', ']']).flatten

-- How a type name is written: identifiers joined by single dots, then any number of dimensions.
def Spells (cs : List Char) : Prop :=
  ∃ ids count, ids ≠ [] ∧ (∀ id ∈ ids, IsIdentifier id) ∧
    cs = ['.'].intercalate ids ++ dimensions count

-- Identifiers with a dot in front of each.
def dotted (ids : List (List Char)) : List Char := ids.flatMap ('.' :: ·)

theorem intercalate_cons_eq (id : List Char) (ids : List (List Char)) :
    ['.'].intercalate (id :: ids) = id ++ dotted ids := by
  induction ids generalizing id with
  | nil => rw [List.intercalate_singleton]; exact (List.append_nil id).symm
  | cons next ids ih =>
    rw [List.intercalate_cons_cons, ih, List.append_assoc]
    rfl

theorem spells_iff {cs : List Char} :
    Spells cs ↔ ∃ first others count, IsIdentifier first ∧ (∀ id ∈ others, IsIdentifier id) ∧
      cs = first ++ (dotted others ++ dimensions count) := by
  constructor
  · rintro ⟨ids, count, hne, hids, rfl⟩
    obtain ⟨first, others, rfl⟩ := List.exists_cons_of_ne_nil hne
    rw [List.forall_mem_cons] at hids
    exact ⟨first, others, count, hids.1, hids.2, by rw [intercalate_cons_eq, List.append_assoc]⟩
  · rintro ⟨first, others, count, hfirst, hothers, rfl⟩
    have hids := List.forall_mem_cons.mpr ⟨hfirst, hothers⟩
    refine ⟨first :: others, count, List.cons_ne_nil _ _, hids, ?_⟩
    rw [intercalate_cons_eq, List.append_assoc]

namespace Position

-- What has to follow a position for a name to end properly.
def Completes : Position → List Char → Prop
  | .start, cs => ∃ first others count, IsIdentifier first ∧ (∀ id ∈ others, IsIdentifier id) ∧
      cs = first ++ (dotted others ++ dimensions count)
  | .inside, cs => ∃ part others count, (∀ c ∈ part, isIdentifierPart c) ∧
      (∀ id ∈ others, IsIdentifier id) ∧ cs = part ++ (dotted others ++ dimensions count)
  | .bracket, cs => ∃ count, cs = ']' :: dimensions count
  | .dimension, cs => ∃ count, cs = dimensions count
  | .refused, _ => False

theorem completes_nil_iff (p : Position) : p.Completes [] ↔ p.isEnd := by
  cases p with
  | start =>
    refine iff_of_false ?_ Bool.false_ne_true
    rintro ⟨first, others, count, hfirst, -, heq⟩
    obtain rfl := (List.append_eq_nil_iff.mp heq.symm).1
    exact hfirst
  | inside => exact iff_of_true ⟨[], [], 0, by simp, by simp, rfl⟩ rfl
  | bracket => exact iff_of_false (fun ⟨_, heq⟩ => nomatch heq) Bool.false_ne_true
  | dimension => exact iff_of_true ⟨0, rfl⟩ rfl
  | refused => exact iff_of_false id Bool.false_ne_true

section Step

variable (c : Char) (cs : List Char)

theorem completes_start_cons :
    Completes .start (c :: cs) ↔ isIdentifierStart c ∧ Completes .inside cs := by
  constructor
  · rintro ⟨first, others, count, hfirst, hothers, heq⟩
    cases first with
    | nil => exact hfirst.elim
    | cons d part =>
      obtain ⟨rfl, rfl⟩ := List.cons.inj heq
      obtain ⟨hc, hpart⟩ := (isIdentifier_cons_iff c part).mp hfirst
      exact ⟨hc, part, others, count, hpart, hothers, rfl⟩
  · rintro ⟨hc, part, others, count, hpart, hothers, rfl⟩
    have hfirst := (isIdentifier_cons_iff c part).mpr ⟨hc, hpart⟩
    exact ⟨c :: part, others, count, hfirst, hothers, rfl⟩

theorem completes_inside_cons :
    Completes .inside (c :: cs) ↔ isIdentifierPart c ∧ Completes .inside cs ∨
      c = '.' ∧ Completes .start cs ∨ c = '[' ∧ Completes .bracket cs := by
  constructor
  · rintro ⟨part, others, count, hpart, hothers, heq⟩
    cases part with
    | cons d part =>
      obtain ⟨rfl, rfl⟩ := List.cons.inj heq
      rw [List.forall_mem_cons] at hpart
      exact Or.inl ⟨hpart.1, part, others, count, hpart.2, hothers, rfl⟩
    | nil =>
      cases others with
      | cons first others =>
        obtain ⟨rfl, rfl⟩ := List.cons.inj heq
        rw [List.forall_mem_cons] at hothers
        have hassoc := List.append_assoc first (dotted others) (dimensions count)
        exact Or.inr (Or.inl ⟨rfl, first, others, count, hothers.1, hothers.2, hassoc⟩)
      | nil =>
        cases count with
        | zero => exact nomatch heq
        | succ count =>
          obtain ⟨rfl, rfl⟩ := List.cons.inj heq
          exact Or.inr (Or.inr ⟨rfl, count, rfl⟩)
  · rintro (⟨hc, part, others, count, hpart, hothers, rfl⟩ |
      ⟨rfl, first, others, count, hfirst, hothers, rfl⟩ | ⟨rfl, count, rfl⟩)
    · exact ⟨c :: part, others, count, List.forall_mem_cons.mpr ⟨hc, hpart⟩, hothers, rfl⟩
    · have hids := List.forall_mem_cons.mpr ⟨hfirst, hothers⟩
      have hassoc := List.append_assoc ('.' :: first) (dotted others) (dimensions count)
      exact ⟨[], first :: others, count, by simp, hids, hassoc.symm⟩
    · exact ⟨[], [], count + 1, by simp, by simp, rfl⟩

theorem completes_bracket_cons :
    Completes .bracket (c :: cs) ↔ c = ']' ∧ Completes .dimension cs := by
  simp only [Completes, List.cons.injEq, exists_and_left]

theorem completes_dimension_cons :
    Completes .dimension (c :: cs) ↔ c = '[' ∧ Completes .bracket cs := by
  constructor
  · rintro ⟨count, heq⟩
    cases count with
    | zero => exact nomatch heq
    | succ count =>
      obtain ⟨rfl, rfl⟩ := List.cons.inj heq
      exact ⟨rfl, count, rfl⟩
  · rintro ⟨rfl, count, rfl⟩
    exact ⟨count + 1, rfl⟩

-- One character leads to a position that the rest has to complete.
theorem completes_cons_iff (p : Position) : p.Completes (c :: cs) ↔ (p.next c).Completes cs := by
  cases p with
  | start =>
    rw [completes_start_cons, next]
    by_cases hc : isIdentifierStart c
    · simp [hc]
    · simp [hc, Completes]
  | inside =>
    rw [completes_inside_cons, next]
    by_cases hdot : c = '.'
    · subst hdot
      simp [isIdentifierPart_dot]
    · by_cases hbracket : c = '['
      · subst hbracket
        simp [isIdentifierPart_bracket]
      · by_cases hpart : isIdentifierPart c
        · simp [hdot, hbracket, hpart]
        · simp [hdot, hbracket, hpart, Completes]
  | bracket =>
    rw [completes_bracket_cons, next]
    by_cases hc : c = ']'
    · simp [hc]
    · simp [hc, Completes]
  | dimension =>
    rw [completes_dimension_cons, next]
    by_cases hc : c = '['
    · simp [hc]
    · simp [hc, Completes]
  | refused => exact Iff.rfl

end Step

theorem isEnd_foldl_next_iff (p : Position) (cs : List Char) :
    (cs.foldl next p).isEnd ↔ p.Completes cs := by
  induction cs generalizing p with
  | nil => exact (completes_nil_iff p).symm
  | cons c cs ih => rw [List.foldl_cons, ih, completes_cons_iff]

end Position

theorem isTypeName_iff (s : String) : isTypeName s ↔ Spells s.toList := by
  rw [isTypeName_eq, Position.isEnd_foldl_next_iff, spells_iff]
  exact Iff.rfl

section SimpleName

variable {t : TypeName}

theorem dot_notMem_of_isIdentifier {id : List Char} (h : IsIdentifier id) : '.' ∉ id := by
  cases id with
  | nil => exact h.elim
  | cons c rest =>
    obtain ⟨hc, hrest⟩ := (isIdentifier_cons_iff c rest).mp h
    rw [List.mem_cons, not_or]
    constructor
    · rintro rfl
      exact absurd hc (by decide)
    · intro hmem
      exact absurd (hrest '.' hmem) (by decide)

theorem dot_notMem_dimensions (count : Nat) : '.' ∉ dimensions count := by
  intro hmem
  obtain ⟨dimension, hdimension, hdot⟩ := List.mem_flatten.mp hmem
  rw [List.eq_of_mem_replicate hdimension] at hdot
  exact absurd hdot (by decide)

theorem toList_simpleName (t : TypeName) :
    t.simpleName.toList = t.name.toList.rtakeWhile (· != '.') := by
  rw [simpleName, String.toList_ofList]
  rfl

theorem dot_notMem_simpleName (t : TypeName) : '.' ∉ t.simpleName.toList := by
  rw [toList_simpleName]
  intro hmem
  exact absurd (List.mem_rtakeWhile_imp hmem) (by decide)

theorem rdropWhile_append_simpleName (t : TypeName) :
    t.name.toList.rdropWhile (· != '.') ++ t.simpleName.toList = t.name.toList := by
  rw [toList_simpleName]
  exact List.rdropWhile_append_rtakeWhile

-- A simple name is all of the name, or there is a dot in front of it.
theorem simpleName_eq_or (t : TypeName) :
    t.simpleName = t.name ∨ ∃ qualifier, t.name = qualifier ++ "." ++ t.simpleName := by
  have happend := rdropWhile_append_simpleName t
  by_cases hnil : t.name.toList.rdropWhile (· != '.') = []
  · rw [hnil, List.nil_append] at happend
    exact Or.inl (String.toList_inj.mp happend)
  · have hlast := List.rdropWhile_last_not (· != '.') t.name.toList hnil
    have hdot : (t.name.toList.rdropWhile (· != '.')).getLast hnil = '.' := by simpa using hlast
    refine Or.inr ⟨String.ofList (t.name.toList.rdropWhile (· != '.')).dropLast, ?_⟩
    rw [← String.toList_inj, String.toList_append, String.toList_append, String.toList_ofList]
    conv_lhs => rw [← happend, ← List.dropLast_append_getLast hnil, hdot]
    rfl

theorem rtakeWhile_of_dot_notMem {back : List Char} (h : '.' ∉ back) :
    back.rtakeWhile (· != '.') = back := by
  rw [List.rtakeWhile_eq_self_iff]
  intro c hc
  rw [bne_iff_ne]
  rintro rfl
  exact h hc

theorem rtakeWhile_behind_dot (front : List Char) {back : List Char} (h : '.' ∉ back) :
    (front ++ '.' :: back).rtakeWhile (· != '.') = back := by
  induction back using List.reverseRecOn with
  | nil => exact List.rtakeWhile_concat_neg _ _ _ (by decide)
  | append_singleton back c ih =>
    rw [List.mem_append, List.mem_singleton, not_or] at h
    have hc : (c != '.') = true := bne_iff_ne.mpr (Ne.symm h.2)
    rw [← List.cons_append, ← List.append_assoc, List.rtakeWhile_concat_pos (· != '.') _ _ hc,
      ih h.1]

-- It is the last identifier with the dimensions.
theorem exists_toList_simpleName_eq (h : Spells t.name.toList) :
    ∃ id count, IsIdentifier id ∧ t.simpleName.toList = id ++ dimensions count := by
  obtain ⟨first, others, count, hfirst, hothers, heq⟩ := spells_iff.mp h
  have hdot {id : List Char} (hid : IsIdentifier id) : '.' ∉ id ++ dimensions count := by
    rw [List.mem_append, not_or]
    exact ⟨dot_notMem_of_isIdentifier hid, dot_notMem_dimensions count⟩
  rw [toList_simpleName, heq]
  rcases List.eq_nil_or_concat' others with rfl | ⟨init, last, rfl⟩
  · exact ⟨first, count, hfirst, rtakeWhile_of_dot_notMem (hdot hfirst)⟩
  · have hlast : IsIdentifier last := hothers last (by simp)
    have hfront : first ++ (dotted (init ++ [last]) ++ dimensions count) =
        first ++ dotted init ++ '.' :: (last ++ dimensions count) := by
      simp [dotted]
    exact ⟨last, count, hlast, by rw [hfront, rtakeWhile_behind_dot _ (hdot hlast)]⟩

end SimpleName

section Parse

theorem toNat_of_isAlpha {c : Char} (h : c.isAlpha) : 65 ≤ c.toNat ∧ c.toNat ≤ 122 := by
  cases (Bool.or_eq_true _ _).mp h with
  | inl hupper =>
    obtain ⟨hlow, hhigh⟩ : 'A'.val ≤ c.val ∧ c.val ≤ 'Z'.val := of_decide_eq_true hupper
    exact ⟨UInt32.le_iff_toNat_le.mp hlow, (UInt32.le_iff_toNat_le.mp hhigh).trans (by decide)⟩
  | inr hlower =>
    obtain ⟨hlow, hhigh⟩ := (Bool.and_eq_true _ _).mp hlower
    have hlow : 'a'.val ≤ c.val := of_decide_eq_true hlow
    have hhigh : c.val ≤ 'z'.val := of_decide_eq_true hhigh
    exact ⟨Nat.le_trans (by decide) (UInt32.le_iff_toNat_le.mp hlow),
      UInt32.le_iff_toNat_le.mp hhigh⟩

theorem isBlank_of_isIdentifierStart {c : Char} (h : isIdentifierStart c) :
    Text.isBlank c = false := by
  rcases (isIdentifierStart_iff c).mp h with halpha | rfl | rfl
  · obtain ⟨hlow, hhigh⟩ := toNat_of_isAlpha halpha
    exact Text.isBlank_of_visible (by omega) (by omega)
  · rfl
  · rfl

theorem parse?_eq_some_iff {s : String} {t : TypeName} :
    parse? s = some t ↔ Spells (Text.trimmed s).toList ∧ t = ⟨Text.trimmed s⟩ := by
  rw [parse?, ← isTypeName_iff, Option.ite_none_right_eq_some, Option.some.injEq]
  exact and_congr_right fun _ => eq_comm

theorem isSome_parse?_iff (s : String) :
    (parse? s).isSome ↔ Spells (Text.trimmed s).toList := by
  simp only [Option.isSome_iff_exists, parse?_eq_some_iff, exists_and_left, exists_eq, and_true]

theorem parse?_of_isTrimmed {s : String} (htrimmed : Text.IsTrimmed s.toList)
    (h : Spells s.toList) : parse? s = some ⟨s⟩ := by
  rw [parse?_eq_some_iff, Text.trimmed_of_isTrimmed htrimmed]
  exact ⟨h, rfl⟩

theorem isTrimmed_simpleName {t : TypeName} (htrimmed : Text.IsTrimmed t.name.toList)
    (h : Spells t.name.toList) : Text.IsTrimmed t.simpleName.toList := by
  constructor
  · -- it begins as an identifier
    intro c hc
    obtain ⟨id, count, hid, heq⟩ := exists_toList_simpleName_eq h
    cases id with
    | nil => exact hid.elim
    | cons d rest =>
      rw [heq] at hc
      obtain rfl : d = c := Option.some.inj hc
      exact isBlank_of_isIdentifierStart ((isIdentifier_cons_iff d rest).mp hid).1
  · -- it ends as the whole name
    intro c hc
    apply htrimmed.2
    rw [← rdropWhile_append_simpleName, List.getLast?_append, hc, Option.some_or]

theorem simpleName_ne_empty {t : TypeName} (h : Spells t.name.toList) : t.simpleName ≠ "" := by
  obtain ⟨id, count, hid, heq⟩ := exists_toList_simpleName_eq h
  intro hempty
  rw [hempty] at heq
  obtain rfl := (List.append_eq_nil_iff.mp heq.symm).1
  exact hid

-- The simple name of a type name is a type name.
theorem parse?_simpleName {t : TypeName} (htrimmed : Text.IsTrimmed t.name.toList)
    (h : Spells t.name.toList) : parse? t.simpleName = some ⟨t.simpleName⟩ := by
  obtain ⟨id, count, hid, heq⟩ := exists_toList_simpleName_eq h
  apply parse?_of_isTrimmed (isTrimmed_simpleName htrimmed h)
  refine ⟨[id], count, List.cons_ne_nil _ _, List.forall_mem_singleton.mpr hid, ?_⟩
  rw [List.intercalate_singleton]
  exact heq

-- Exactly what follows the grammar is parsed, without the white space around it. What comes out
-- stays the same when it is parsed again, by its name, through a string or by its simple name.
theorem parse?_exact (s : String) :
    ((parse? s).isSome ↔ Spells (Text.trimmed s).toList) ∧
      ∀ t, parse? s = some t →
        t.name = Text.trimmed s ∧ parse? t.name = some t ∧
          t.simpleName ≠ "" ∧ '.' ∉ t.simpleName.toList ∧
          (t.simpleName = t.name ∨ ∃ qualifier, t.name = qualifier ++ "." ++ t.simpleName) ∧
          parse? t.simpleName = some ⟨t.simpleName⟩ ∧
          ∃ text, (Value.type t).read? String = some text ∧
            (Value.string text).read? TypeName = some t := by
  refine ⟨isSome_parse?_iff s, fun t hparse => ?_⟩
  obtain ⟨h, rfl⟩ := parse?_eq_some_iff.mp hparse
  have htrimmed := Text.isTrimmed_trimmed s
  have hagain : parse? (Text.trimmed s) = some ⟨Text.trimmed s⟩ := parse?_of_isTrimmed htrimmed h
  exact ⟨rfl, hagain, simpleName_ne_empty h, dot_notMem_simpleName _, simpleName_eq_or _,
    parse?_simpleName htrimmed h, Text.trimmed s, rfl, hagain⟩

theorem parse?_exact_dimension :
    parse? " a.b$C[] " = some ⟨"a.b$C[]"⟩ ∧ parse? "a.b$C[]" = some ⟨"a.b$C[]"⟩ ∧
      parse? "b$C[]" = some ⟨"b$C[]"⟩ ∧
      ∃ text, (Value.type ⟨"a.b$C[]"⟩).read? String = some text ∧
        (Value.string text).read? TypeName = some ⟨"a.b$C[]"⟩ := by
  have htrimmed : Text.trimmed " a.b$C[] " = "a.b$C[]" := by
    rw [Text.trimmed_eq]
    decide
  have hparse : parse? " a.b$C[] " = some ⟨"a.b$C[]"⟩ := by
    rw [parse?_eq_some_iff, htrimmed, ← isTypeName_iff, isTypeName_eq]
    decide
  obtain ⟨-, hagain, -, -, -, hsimple, hstring⟩ := (parse?_exact _).2 _ hparse
  exact ⟨hparse, hagain, hsimple, hstring⟩

end Parse

end TypeName

end LayeredAnnotations
