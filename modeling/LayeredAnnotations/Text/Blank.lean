namespace LayeredAnnotations.Text

-- The characters with the Unicode property White_Space. Zero-width spaces are not among them.
def isBlank (c : Char) : Bool :=
  let n := c.toNat
  (0x9 ≤ n && n ≤ 0xD) || n == 0x20 || n == 0x85 || n == 0xA0 || n == 0x1680
    || (0x2000 ≤ n && n ≤ 0x200A) || n == 0x2028 || n == 0x2029 || n == 0x202F || n == 0x205F
    || n == 0x3000

def trimLeft (cs : List Char) : List Char := cs.dropWhile isBlank

def trimRight (cs : List Char) : List Char := (cs.reverse.dropWhile isBlank).reverse

def trim (cs : List Char) : List Char := trimRight (trimLeft cs)

-- `trim` on strings, which looks at nothing but the white space at both ends.
def trimmed (s : String) : String := ((s.dropWhile isBlank).dropEndWhile isBlank).copy

theorem dropWhile_append {as bs : List Char} {p : Char → Bool} (ha : as.all p)
    (hb : bs.head?.any p = false) : (as ++ bs).dropWhile p = bs := by
  rw [List.dropWhile_append_of_pos (by simpa using ha)]
  cases bs with
  | nil => rfl
  | cons b bs => exact List.dropWhile_cons_of_neg (by simpa using hb)

theorem toList_dropWhile (s : String) (p : Char → Bool) :
    (s.dropWhile p).copy.toList = s.toList.dropWhile p := by
  have happend : (s.takeWhile p).copy ++ (s.dropWhile p).copy = s :=
    String.takeWhile_append_dropWhile
  have hall : (s.takeWhile p).all p = true := String.all_takeWhile
  have hhead : (s.dropWhile p).startsWith p = false := String.startsWith_dropWhile
  rw [String.Slice.all_bool_eq] at hall
  rw [String.Slice.startsWith_bool_eq_head?] at hhead
  conv => rhs; rw [← happend, String.toList_append]
  rw [dropWhile_append hall hhead]

theorem all_takeEndWhile (s : String.Slice) (p : Char → Bool) :
    (s.takeEndWhile p).copy.toList.all p := by
  rw [List.all_eq_true]
  intro c hc
  rw [String.Slice.takeEndWhile_eq_sliceFrom_skipSuffixWhile,
    String.Slice.mem_toList_copy_iff_exists_get] at hc
  obtain ⟨pos, hpos, rfl⟩ := hc
  rw [String.Slice.Pos.get_eq_get_ofSliceFrom]
  apply String.Slice.apply_eq_true_of_skipSuffixWhile_le_bool String.Slice.Pos.le_ofSliceFrom
  rw [← String.Slice.Pos.ofSliceFrom_endPos, String.Slice.Pos.ofSliceFrom_lt_ofSliceFrom_iff,
    String.Slice.Pos.lt_endPos_iff]
  exact hpos

theorem toList_dropEndWhile (s : String.Slice) (p : Char → Bool) :
    (s.dropEndWhile p).copy.toList = (s.copy.toList.reverse.dropWhile p).reverse := by
  have happend : (s.dropEndWhile p).copy ++ (s.takeEndWhile p).copy = s.copy :=
    String.Slice.dropEndWhile_append_takeEndWhile
  have hlast : (s.dropEndWhile p).endsWith p = false := String.Slice.endsWith_dropEndWhile
  rw [String.Slice.endsWith_bool_eq_getLast?] at hlast
  conv => rhs; rw [← happend, String.toList_append, List.reverse_append]
  rw [dropWhile_append (by rw [List.all_reverse]; exact all_takeEndWhile s p)
    (by rw [List.head?_reverse]; exact hlast), List.reverse_reverse]

theorem toList_trimmed (s : String) : (trimmed s).toList = trim s.toList := by
  rw [trimmed, toList_dropEndWhile, toList_dropWhile, trim, trimRight, trimLeft]

theorem trimmed_eq (s : String) : trimmed s = String.ofList (trim s.toList) := by
  rw [← toList_trimmed, String.ofList_toList]

-- Letters outside ASCII keep their case.
def lowercase (s : String) : String := s.foldl (fun t c => t.push c.toLower) ""

theorem lowercase_eq (s : String) : lowercase s = String.ofList (s.toList.map Char.toLower) := by
  suffices h : ∀ (cs : List Char) (t : String),
      cs.foldl (fun t c => t.push c.toLower) t = t ++ String.ofList (cs.map Char.toLower) by
    rw [lowercase, String.foldl_eq_foldl_toList, h, String.empty_append]
  intro cs
  induction cs with
  | nil => simp
  | cons c cs ih =>
    intro t
    rw [List.foldl_cons, ih, List.map_cons, String.ofList_cons, ← String.append_singleton,
      String.append_assoc]

end LayeredAnnotations.Text
