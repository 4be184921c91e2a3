import LayeredAnnotations.Json.Printer
import LayeredAnnotations.Json.Reader
import LayeredAnnotations.Proofs.Numeral

namespace LayeredAnnotations

namespace Json

section Strings

-- Control characters without an escape of their own are given by number.
def pieceOf (c : Char) : Piece :=
  if c ∈ ['\x08', '\x0c', '\n', '\r', '\t'] then .char c
  else if c.toNat < 0x20 then .unit c.toNat
  else .char c

-- The three ways to write a character.
theorem escape_cases (c : Char) :
    (∃ e, e ≠ 'u' ∧ simpleEscape? e = some c ∧ escape c = ['\\', e] ∧ pieceOf c = .char c) ∨
    (c.toNat < 0x20 ∧ pieceOf c = .unit c.toNat ∧ escape c =
      ['\\', 'u', '0', '0', Nat.digitChar (c.toNat / 16), Nat.digitChar (c.toNat % 16)]) ∨
    (c ≠ '"' ∧ ¬(c = '\\' ∨ c.toNat < 0x20) ∧ escape c = [c] ∧ pieceOf c = .char c) := by
  by_cases hquote : c = '"'
  · subst hquote
    exact .inl ⟨'"', by decide, rfl, rfl, rfl⟩
  by_cases hbackslash : c = '\\'
  · subst hbackslash
    exact .inl ⟨'\\', by decide, rfl, rfl, rfl⟩
  by_cases hshort : c ∈ ['\x08', '\x0c', '\n', '\r', '\t']
  · simp only [List.mem_cons, List.not_mem_nil, or_false] at hshort
    obtain rfl | rfl | rfl | rfl | rfl := hshort
    · exact .inl ⟨'b', by decide, rfl, rfl, rfl⟩
    · exact .inl ⟨'f', by decide, rfl, rfl, rfl⟩
    · exact .inl ⟨'n', by decide, rfl, rfl, rfl⟩
    · exact .inl ⟨'r', by decide, rfl, rfl, rfl⟩
    · exact .inl ⟨'t', by decide, rfl, rfl, rfl⟩
  rw [pieceOf, if_neg hshort]
  simp only [List.mem_cons, List.not_mem_nil, or_false, not_or] at hshort
  by_cases hcontrol : c.toNat < 0x20
  · simp [escape, hquote, hbackslash, hshort, hcontrol]
  · simp [escape, hquote, hbackslash, hshort, hcontrol]

theorem hexUnit?_digitChar :
    ∀ n < 0x20, hexUnit? '0' '0' (Nat.digitChar (n / 16)) (Nat.digitChar (n % 16)) = some n := by
  decide

theorem pieces?_escape (c : Char) (cs : List Char) :
    pieces? (escape c ++ cs) = (pieces? cs).map fun (ps, rest) => (pieceOf c :: ps, rest) := by
  obtain ⟨e, hne, he, hescape, hpiece⟩ | ⟨hlt, hpiece, hescape⟩ |
    ⟨hquote, hplain, hescape, hpiece⟩ := escape_cases c
  · rw [hescape, hpiece, List.cons_append, List.cons_append, List.nil_append, pieces?]
    · rw [he]
      cases pieces? cs <;> rfl
    · exact fun _ _ _ _ _ hu => absurd hu hne
  · rw [hescape, hpiece]
    simp only [List.cons_append, List.nil_append, pieces?, hexUnit?_digitChar _ hlt]
    cases pieces? cs <;> rfl
  · have hbackslash : c ≠ '\\' := fun h => hplain (.inl h)
    rw [hescape, hpiece, List.singleton_append, pieces?]
    · rw [if_neg hplain]
    · exact hquote
    · exact fun _ _ _ _ _ h => absurd h hbackslash
    · exact fun _ _ h => absurd h hbackslash

theorem pieces?_quoted (cs rest : List Char) :
    pieces? (cs.flatMap escape ++ '"' :: rest) = some (cs.map pieceOf, rest) := by
  induction cs with
  | nil => rfl
  | cons c cs ih =>
    rw [List.flatMap_cons, List.append_assoc, pieces?_escape, ih]
    rfl

theorem characters?_unit {n : Nat} (h : n < 0xD800) (ps : List Piece) :
    characters? (.unit n :: ps) = (characters? ps).map (Char.ofNat n :: ·) := by
  have hhigh : isHighSurrogate n = false := by simp [isHighSurrogate]; omega
  have hlow : isLowSurrogate n = false := by simp [isLowSurrogate]; omega
  cases ps with
  | nil => simp [characters?, hhigh, hlow]
  | cons p ps => cases p <;> simp [characters?, hhigh, hlow]

theorem characters?_pieceOf (c : Char) (ps : List Piece) :
    characters? (pieceOf c :: ps) = (characters? ps).map (c :: ·) := by
  obtain ⟨-, -, -, -, hpiece⟩ | ⟨hlt, hpiece, -⟩ | ⟨-, -, -, hpiece⟩ := escape_cases c
  · rw [hpiece, characters?]
  · rw [hpiece, characters?_unit (by omega), Char.ofNat_toNat]
  · rw [hpiece, characters?]

theorem characters?_map_pieceOf (cs : List Char) : characters? (cs.map pieceOf) = some cs := by
  induction cs with
  | nil => rfl
  | cons c cs ih => rw [List.map_cons, characters?_pieceOf, ih, Option.map_some]

-- Every text is read back as it was, whatever characters are in it.
theorem string?_quoted (s : String) (rest : List Char) :
    string? (s.toList.flatMap escape ++ '"' :: rest) = some (some s, rest) := by
  rw [string?, pieces?_quoted]
  simp only [Option.map_some, characters?_map_pieceOf, String.ofList_toList]

end Strings

-- What can stand behind a value in a text: its end, or what divides or ends the values around it.
def Ends (rest : List Char) : Prop := ∀ c ∈ rest.head?, c = ',' ∨ c = ']' ∨ c = '\x7d'

theorem ends_cons {c : Char} {rest : List Char} (h : c = ',' ∨ c = ']' ∨ c = '\x7d') :
    Ends (c :: rest) := by
  intro d hd
  obtain rfl := Option.some.inj hd
  exact h

section Numbers

-- A decimal number has no zero in front.
theorem head?_toDigits_ne {n : Nat} (h : 0 < n) : (Nat.toDigits 10 n).head? ≠ some '0' := by
  induction n using Nat.strongRecOn with
  | ind n ih =>
    rw [Nat.toDigits_eq_if (by decide)]
    split
    · next hlt =>
      have hdigit : ∀ d < 10, 0 < d → [Nat.digitChar d].head? ≠ some '0' := by decide
      exact hdigit n hlt h
    · rw [List.head?_append_of_ne_nil _ Nat.toDigits_ne_nil]
      exact ih (n / 10) (by omega) (by omega)

theorem isNumber_ofInt (n : Int) : isNumber (.ofInt n) := by
  have hne : Nat.toDigits 10 n.natAbs ≠ [] := Nat.toDigits_ne_nil
  simp only [isNumber, Numeral.ofInt, Bool.and_eq_true, Bool.or_eq_true, beq_iff_eq, bne_iff_ne]
  refine ⟨?_, (Option.some_ne_none []).symm⟩
  by_cases hzero : n.natAbs = 0
  · exact .inl (by rw [hzero]; rfl)
  · exact .inr ⟨by simp, head?_toDigits_ne (by omega)⟩

theorem splitUnsigned?_toDigits {negative : Bool} {n : Int} (hn : negative = decide (n < 0))
    {rest : List Char} (h : Ends rest) :
    Numeral.splitUnsigned? negative (Nat.toDigits 10 n.natAbs ++ rest) =
      some (.ofInt n, rest) := by
  have hdigits : ∀ c ∈ Nat.toDigits 10 n.natAbs, c.isDigit := isDigit_of_mem_toDigits
  subst hn
  rw [Numeral.splitUnsigned?, List.takeWhile_append_of_pos hdigits,
    List.dropWhile_append_of_pos hdigits]
  cases rest with
  | nil => simp [Numeral.splitFraction, Numeral.splitExponent?, Numeral.ofInt]
  | cons c cs =>
    obtain rfl | rfl | rfl := h c rfl
    · simp [Numeral.splitFraction, Numeral.splitExponent?, Numeral.ofInt]
    · simp [Numeral.splitFraction, Numeral.splitExponent?, Numeral.ofInt]
    · simp [Numeral.splitFraction, Numeral.splitExponent?, Numeral.ofInt]

theorem text_ofInt (n : Int) :
    (Numeral.ofInt n).text = (if n < 0 then ['-'] else []) ++ Nat.toDigits 10 n.natAbs := by
  rw [← toList_intText, intText, String.toList_ofList]

theorem exists_toDigits_eq_cons (n : Nat) : ∃ d ds, Nat.toDigits 10 n = d :: ds ∧ d.isDigit := by
  obtain ⟨d, ds, hdigits⟩ := List.exists_cons_of_ne_nil (Nat.toDigits_ne_nil (n := n) (b := 10))
  exact ⟨d, ds, hdigits, isDigit_of_mem_toDigits d (hdigits ▸ List.mem_cons_self)⟩

theorem number?_ofInt (n : Int) {rest : List Char} (h : Ends rest) :
    number? ((Numeral.ofInt n).text ++ rest) = some (.ofInt n, rest) := by
  rw [text_ofInt]
  by_cases hneg : n < 0
  · rw [if_pos hneg, List.singleton_append, List.cons_append, number?,
      splitUnsigned?_toDigits (decide_eq_true hneg).symm h]
    exact if_pos (isNumber_ofInt n)
  · rw [if_neg hneg, List.nil_append, number?,
      splitUnsigned?_toDigits (decide_eq_false hneg).symm h]
    · exact if_pos (isNumber_ofInt n)
    · intro cs hcs
      obtain ⟨d, ds, hdigits, hd⟩ := exists_toDigits_eq_cons n.natAbs
      rw [hdigits] at hcs
      obtain ⟨rfl, -⟩ := List.cons.inj hcs
      exact absurd hd (by decide)

-- Numbers start like no other value, and with no blank.
theorem exists_text_eq_cons (n : Int) :
    ∃ c cs, (Numeral.ofInt n).text = c :: cs ∧ isBlank c = false ∧
      c ∉ ['\x7b', '[', '"', 'n', 't', 'f'] ∧ c ≠ ']' := by
  have hstart : ∀ c ∈ [' ', '\n', '\t', '\r', '\x7b', '[', '"', 'n', 't', 'f', ']'],
      ¬(c = '-' ∨ c.isDigit) := by simp
  obtain ⟨d, ds, hdigits, hd⟩ := exists_toDigits_eq_cons n.natAbs
  obtain ⟨c, cs, htext, hc⟩ :
      ∃ c cs, (Numeral.ofInt n).text = c :: cs ∧ (c = '-' ∨ c.isDigit) := by
    rw [text_ofInt, hdigits]
    by_cases hneg : n < 0
    · exact ⟨'-', d :: ds, by rw [if_pos hneg]; rfl, .inl rfl⟩
    · exact ⟨d, ds, by rw [if_neg hneg]; rfl, .inr hd⟩
  have hother := mt (hstart c) (not_not_intro hc)
  simp only [List.mem_cons, List.not_mem_nil, or_false, not_or] at hother
  exact ⟨c, cs, htext, by simp [isBlank, hother], by simp [hother], by simp [hother]⟩

end Numbers

theorem skipBlanks_cons {c : Char} (h : isBlank c = false) (cs : List Char) :
    skipBlanks (c :: cs) = c :: cs := by
  rw [skipBlanks, List.dropWhile_cons_of_neg (by simp [h])]

-- What starts like none of the other values is read as a number.
theorem value?_of_number {c : Char} (hblank : isBlank c = false)
    (h : c ∉ ['\x7b', '[', '"', 'n', 't', 'f']) (cs : List Char) (fuel : Nat) :
    value? (fuel + 1) (c :: cs) =
      (number? (c :: cs)).map fun (x, rest) => (.number x, rest) := by
  rw [value?, skipBlanks_cons hblank]
  split <;> simp_all

-- Trees that a text keeps as they are: no string is missing, and numbers are integers.
inductive Tree.Faithful : Tree → Prop
  | null : Faithful .null
  | bool (b : Bool) : Faithful (.bool b)
  | number (n : Int) : Faithful (.number (.ofInt n))
  | string (s : String) : Faithful (.string (some s))
  | array {items : List Tree} (h : ∀ t ∈ items, Faithful t) : Faithful (.array items)
  | object {entries : List (Option String × Tree)} (hkeys : ∀ entry ∈ entries, entry.1.isSome)
    (h : ∀ entry ∈ entries, Faithful entry.2) : Faithful (.object entries)

namespace Tree

theorem Faithful.exists_print_eq_cons {t : Tree} (h : t.Faithful) :
    ∃ c cs, t.print = c :: cs ∧ isBlank c = false ∧ c ≠ ']' := by
  cases h with
  | null => exact ⟨'n', _, rfl, rfl, by decide⟩
  | bool b => cases b <;> exact ⟨_, _, rfl, rfl, by decide⟩
  | number n =>
    obtain ⟨c, cs, htext, hblank, -, hend⟩ := exists_text_eq_cons n
    exact ⟨c, cs, by rw [print, printBefore, List.append_nil, htext], hblank, hend⟩
  | string s => exact ⟨'"', _, rfl, rfl, by decide⟩
  | array h => exact ⟨'[', _, rfl, rfl, by decide⟩
  | object hkeys h => exact ⟨'\x7b', _, rfl, rfl, by decide⟩

-- With two calls for each character that is left, a value is read as it was.
def Reads (t : Tree) : Prop :=
  ∀ fuel rest, 2 * (t.printBefore rest).length ≤ fuel → Ends rest →
    value? fuel (t.printBefore rest) = some (t, rest)

-- There is a character for at least one call.
theorem Faithful.reads_of_succ {t : Tree} (h : t.Faithful)
    (hread : ∀ fuel rest, 2 * (t.printBefore rest).length ≤ fuel + 1 → Ends rest →
      value? (fuel + 1) (t.printBefore rest) = some (t, rest)) : t.Reads := by
  intro fuel rest hfuel hrest
  cases fuel with
  | zero =>
    obtain ⟨c, cs, hprint, -⟩ := h.exists_print_eq_cons
    rw [printBefore_eq, hprint, List.cons_append, List.length_cons] at hfuel
    omega
  | succ fuel => exact hread fuel rest hfuel hrest

theorem reads_number (n : Int) : Reads (.number (.ofInt n)) := by
  refine Faithful.reads_of_succ (.number n) fun fuel rest _ hrest => ?_
  obtain ⟨c, cs, htext, hblank, hstart, -⟩ := exists_text_eq_cons n
  rw [printBefore, htext, List.cons_append, value?_of_number hblank hstart, ← List.cons_append,
    ← htext, number?_ofInt n hrest]
  rfl

theorem reads_string (s : String) : Reads (.string (some s)) := by
  refine Faithful.reads_of_succ (.string s) fun fuel rest _ _ => ?_
  rw [printBefore, Option.getD_some, quotedBefore, value?, skipBlanks_cons rfl]
  simp only [string?_quoted, Option.map_some]

theorem length_le_printBefore (t : Tree) (next : List Char) :
    next.length ≤ (t.printBefore next).length := by
  rw [printBefore_eq, List.length_append]
  omega

-- Fewer characters are left behind each item, so that the calls last until the end.
theorem items?_printItems {items : List Tree} (hne : items ≠ []) (h : ∀ t ∈ items, t.Reads)
    {fuel : Nat} {rest : List Char} (hfuel : 2 * (printItems items (']' :: rest)).length < fuel) :
    items? fuel (printItems items (']' :: rest)) = some (items, rest) := by
  induction items generalizing fuel with
  | nil => exact absurd rfl hne
  | cons t others ih =>
    obtain ⟨ht, hothers⟩ := List.forall_mem_cons.mp h
    obtain ⟨fuel, rfl⟩ := Nat.exists_eq_add_one_of_ne_zero (Nat.ne_zero_of_lt hfuel)
    cases others with
    | nil =>
      rw [printItems] at hfuel ⊢
      rw [items?, ht fuel (']' :: rest) (by omega) (ends_cons (by decide))]
      rfl
    | cons u others =>
      rw [printItems] at hfuel ⊢
      -- the comma makes up for the call that has been used
      have hlength := length_le_printBefore t (',' :: printItems (u :: others) (']' :: rest))
      rw [List.length_cons] at hlength
      rw [items?, ht fuel _ (by omega) (ends_cons (by decide))]
      have hrest : items? fuel (printItems (u :: others) (']' :: rest)) =
          some (u :: others, rest) :=
        ih (List.cons_ne_nil u others) hothers (by omega)
      simp only [bind, Option.bind, skipBlanks_cons (c := ',') rfl, hrest, Option.map_some]

theorem entries?_printEntries {entries : List (Option String × Tree)} (hne : entries ≠ [])
    (hkeys : ∀ entry ∈ entries, entry.1.isSome) (h : ∀ entry ∈ entries, entry.2.Reads)
    {fuel : Nat} {rest : List Char}
    (hfuel : 2 * (printEntries entries ('\x7d' :: rest)).length < fuel) :
    entries? fuel (printEntries entries ('\x7d' :: rest)) = some (entries, rest) := by
  induction entries generalizing fuel with
  | nil => exact absurd rfl hne
  | cons entry others ih =>
    obtain ⟨key, t⟩ := entry
    obtain ⟨hkey, hothersKeys⟩ := List.forall_mem_cons.mp hkeys
    obtain ⟨ht, hothers⟩ : t.Reads ∧ ∀ entry ∈ others, entry.2.Reads :=
      List.forall_mem_cons.mp h
    obtain ⟨fuel, rfl⟩ := Nat.exists_eq_add_one_of_ne_zero (Nat.ne_zero_of_lt hfuel)
    obtain ⟨key, rfl⟩ := Option.isSome_iff_exists.mp hkey
    cases others with
    | nil =>
      rw [printEntries, Option.getD_some, quotedBefore] at hfuel ⊢
      simp only [List.length_cons, List.length_append] at hfuel
      rw [entries?, skipBlanks_cons rfl]
      have hread := ht fuel ('\x7d' :: rest) (by omega) (ends_cons (by decide))
      simp only [bind, Option.bind, string?_quoted, skipBlanks_cons (c := ':') rfl, hread,
        skipBlanks_cons (c := '\x7d') rfl]
    | cons e others =>
      rw [printEntries, Option.getD_some, quotedBefore] at hfuel ⊢
      have hlength := length_le_printBefore t (',' :: printEntries (e :: others) ('\x7d' :: rest))
      simp only [List.length_cons, List.length_append] at hfuel hlength
      rw [entries?, skipBlanks_cons rfl]
      have hread := ht fuel (',' :: printEntries (e :: others) ('\x7d' :: rest)) (by omega)
        (ends_cons (by decide))
      have hrest : entries? fuel (printEntries (e :: others) ('\x7d' :: rest)) =
          some (e :: others, rest) :=
        ih (List.cons_ne_nil e others) hothersKeys hothers (by omega)
      simp only [bind, Option.bind, string?_quoted, skipBlanks_cons (c := ':') rfl, hread,
        skipBlanks_cons (c := ',') rfl, hrest, Option.map_some]

theorem exists_printItems_eq_cons {t : Tree} (h : t.Faithful) (others : List Tree)
    (next : List Char) :
    ∃ c cs, printItems (t :: others) next = c :: cs ∧ isBlank c = false ∧ c ≠ ']' := by
  obtain ⟨c, cs, hprint, hc⟩ := h.exists_print_eq_cons
  cases others with
  | nil => exact ⟨c, cs ++ next, by rw [printItems, printBefore_eq, hprint]; rfl, hc⟩
  | cons u others =>
    exact ⟨c, cs ++ ',' :: printItems (u :: others) next,
      by rw [printItems, printBefore_eq, hprint]; rfl, hc⟩

theorem exists_printEntries_eq_cons (entry : Option String × Tree)
    (others : List (Option String × Tree)) (next : List Char) :
    ∃ cs, printEntries (entry :: others) next = '"' :: cs := by
  cases others with
  | nil => exact ⟨_, rfl⟩
  | cons e others => exact ⟨_, rfl⟩

theorem reads_array {items : List Tree} (hfaithful : ∀ t ∈ items, t.Faithful)
    (h : ∀ t ∈ items, t.Reads) : Reads (.array items) := by
  refine Faithful.reads_of_succ (.array hfaithful) fun fuel rest hfuel _ => ?_
  rw [printBefore, List.length_cons] at hfuel
  rw [printBefore, value?, skipBlanks_cons rfl]
  cases items with
  | nil => rfl
  | cons t others =>
    obtain ⟨c, cs, hprint, hblank, hend⟩ :=
      exists_printItems_eq_cons (hfaithful t List.mem_cons_self) others (']' :: rest)
    have hitems : items? fuel (printItems (t :: others) (']' :: rest)) = some (t :: others, rest) :=
      items?_printItems (List.cons_ne_nil t others) h (by omega)
    rw [hprint] at hitems ⊢
    simp only [skipBlanks_cons hblank]
    split
    · next hend' => exact absurd (List.cons.inj hend').1 hend
    · rw [hitems]
      rfl

theorem reads_object {entries : List (Option String × Tree)}
    (hkeys : ∀ entry ∈ entries, entry.1.isSome) (hfaithful : ∀ entry ∈ entries, entry.2.Faithful)
    (h : ∀ entry ∈ entries, entry.2.Reads) : Reads (.object entries) := by
  refine Faithful.reads_of_succ (.object hkeys hfaithful) fun fuel rest hfuel _ => ?_
  rw [printBefore, List.length_cons] at hfuel
  rw [printBefore, value?, skipBlanks_cons rfl]
  cases entries with
  | nil => rfl
  | cons entry others =>
    obtain ⟨cs, hprint⟩ := exists_printEntries_eq_cons entry others ('\x7d' :: rest)
    have hentries : entries? fuel (printEntries (entry :: others) ('\x7d' :: rest)) =
        some (entry :: others, rest) :=
      entries?_printEntries (List.cons_ne_nil entry others) hkeys h (by omega)
    rw [hprint] at hentries ⊢
    simp only [skipBlanks_cons (c := '"') rfl]
    split
    · next hclose => exact absurd (List.cons.inj hclose).1 (by decide)
    · rw [hentries]
      rfl

theorem Faithful.reads {t : Tree} (h : t.Faithful) : t.Reads := by
  induction h with
  | null => exact Faithful.null.reads_of_succ fun _ _ _ _ => rfl
  | bool b =>
    refine (Faithful.bool b).reads_of_succ fun _ _ _ _ => ?_
    cases b <;> rfl
  | number n => exact reads_number n
  | string s => exact reads_string s
  | array hitems ih => exact reads_array hitems ih
  | object hkeys hentries ih => exact reads_object hkeys hentries ih

end Tree

-- What is printed is read back as the tree that it was printed from.
theorem read?_text {t : Tree} (h : t.Faithful) : read? t.text = some t := by
  have hread := h.reads (2 * t.print.length + 2) [] (by rw [Tree.print]; omega)
    (fun c hc => nomatch hc)
  rw [read?, Tree.text, String.toList_ofList]
  simp only [Tree.print] at hread ⊢
  rw [hread]
  rfl

end Json

end LayeredAnnotations
