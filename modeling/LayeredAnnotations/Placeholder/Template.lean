namespace LayeredAnnotations

-- A text cut at its `${…}` expressions.
structure Template where
  -- the literal text in front of each expression, and the expression without its braces
  holes : List (List Char × List Char)
  tail : List Char
deriving DecidableEq, Repr

namespace Template

-- Splits at the first closing brace.
def splitClose? : List Char → Option (List Char × List Char)
  | [] => none
  | c :: cs =>
    if c = '}' then some ([], cs)
    else (splitClose? cs).map fun (body, rest) => (c :: body, rest)

-- The text in front of the first expression, the expression, and the text behind it. An opening
-- that is never closed leaves no closing brace for a later one either.
def firstHole? : List Char → Option (List Char × List Char × List Char)
  | '$' :: '{' :: cs => (splitClose? cs).map fun (body, rest) => ([], body, rest)
  | [] => none
  | c :: cs => (firstHole? cs).map fun (before, body, rest) => (c :: before, body, rest)

theorem length_of_splitClose? {cs body rest : List Char} (h : splitClose? cs = some (body, rest)) :
    rest.length < cs.length := by
  induction cs generalizing body with
  | nil => simp [splitClose?] at h
  | cons c cs ih =>
    rw [splitClose?] at h
    split at h
    · simp_all
    · obtain ⟨⟨body', rest'⟩, hsplit, heq⟩ := Option.map_eq_some_iff.mp h
      simp only [Prod.mk.injEq] at heq
      obtain ⟨_, rfl⟩ := heq
      have := ih hsplit
      simp only [List.length_cons]
      omega

theorem length_of_firstHole? {cs before body rest : List Char}
    (h : firstHole? cs = some (before, body, rest)) : rest.length < cs.length := by
  fun_induction firstHole? cs generalizing before with
  | case1 cs =>
    obtain ⟨⟨body', rest'⟩, hsplit, heq⟩ := Option.map_eq_some_iff.mp h
    simp only [Prod.mk.injEq] at heq
    obtain ⟨_, _, rfl⟩ := heq
    have := length_of_splitClose? hsplit
    simp only [List.length_cons]
    omega
  | case2 => simp at h
  | case3 c cs _ ih =>
    obtain ⟨⟨before', body', rest'⟩, hfirst, heq⟩ := Option.map_eq_some_iff.mp h
    simp only [Prod.mk.injEq] at heq
    obtain ⟨_, rfl, rfl⟩ := heq
    have := ih hfirst
    simp only [List.length_cons]
    omega

-- What follows an expression is read on its own, so that expressions never overlap.
def parse (cs : List Char) : Template :=
  match h : firstHole? cs with
  | none => ⟨[], cs⟩
  | some (before, body, rest) =>
    have := length_of_firstHole? h
    let t := parse rest
    ⟨(before, body) :: t.holes, t.tail⟩
termination_by cs.length

theorem parse_of_firstHole? {cs before body rest : List Char}
    (h : firstHole? cs = some (before, body, rest)) :
    parse cs = ⟨(before, body) :: (parse rest).holes, (parse rest).tail⟩ := by
  rw [parse]
  split
  · next hnone => exact nomatch hnone.symm.trans h
  · next hsome =>
    cases hsome.symm.trans h
    rfl

theorem parse_of_firstHole?_eq_none {cs : List Char} (h : firstHole? cs = none) :
    parse cs = ⟨[], cs⟩ := by
  rw [parse]
  split
  · rfl
  · next hsome => exact nomatch hsome.symm.trans h

-- An expression with its braces.
def written (body : List Char) : String := "$\x7b" ++ String.ofList body ++ "\x7d"

-- The text with every expression replaced. What comes in is not looked at again.
def render (t : Template) (f : List Char → String) : String :=
  t.holes.foldl (fun out (before, body) => out ++ String.ofList before ++ f body) ""
    ++ String.ofList t.tail

theorem toList_render (t : Template) (f : List Char → String) :
    (t.render f).toList =
      (t.holes.flatMap fun (before, body) => before ++ (f body).toList) ++ t.tail := by
  suffices h : ∀ (holes : List (List Char × List Char)) (out : String),
      (holes.foldl (fun out (before, body) => out ++ String.ofList before ++ f body) out).toList
        = out.toList ++ holes.flatMap fun (before, body) => before ++ (f body).toList by
    rw [render, String.toList_append, h, String.toList_empty, List.nil_append, String.toList_ofList]
  intro holes
  induction holes with
  | nil => simp
  | cons hole holes ih => simp [ih]

end Template

-- How much of an expression has been read.
inductive Progress where
  | nothing
  | dollar
  | opened
  | closed
deriving DecidableEq, Repr

namespace Progress

def next : Progress → Char → Progress
  | .nothing, c => if c = '$' then .dollar else .nothing
  | .dollar, c => if c = '{' then .opened else if c = '$' then .dollar else .nothing
  | .opened, c => if c = '}' then .closed else .opened
  | .closed, _ => .closed

theorem foldl_closed (cs : List Char) : cs.foldl next .closed = .closed := by
  induction cs with
  | nil => rfl
  | cons c cs ih => exact ih

theorem foldl_opened (cs : List Char) :
    cs.foldl next .opened = .closed ↔ (Template.splitClose? cs).isSome := by
  induction cs with
  | nil => simp [Template.splitClose?]
  | cons c cs ih =>
    rw [List.foldl_cons, next, Template.splitClose?]
    split
    · simp [foldl_closed]
    · rw [ih, Option.isSome_map]

-- Also one dollar sign into an opening.
theorem foldl_nothing (cs : List Char) :
    (cs.foldl next .nothing = .closed ↔ (Template.firstHole? cs).isSome) ∧
      (cs.foldl next .dollar = .closed ↔ (Template.firstHole? ('$' :: cs)).isSome) := by
  induction cs with
  | nil => simp [Template.firstHole?]
  | cons c cs ih =>
    simp only [List.foldl_cons, next]
    by_cases hd : c = '$'
    · subst hd
      simp [Template.firstHole?, ih.2]
    · by_cases ho : c = '{'
      · subst ho
        simp [Template.firstHole?, foldl_opened, hd, ih.1]
      · simp [Template.firstHole?, hd, ho, ih.1]

end Progress

-- One look at each character is enough to find out whether there is an expression.
def containsPlaceholder (s : String) : Bool := s.foldl Progress.next .nothing == .closed

theorem containsPlaceholder_eq (s : String) :
    containsPlaceholder s = (Template.firstHole? s.toList).isSome := by
  rw [containsPlaceholder, String.foldl_eq_foldl_toList, Bool.eq_iff_iff, beq_iff_eq,
    (Progress.foldl_nothing s.toList).1]

end LayeredAnnotations
