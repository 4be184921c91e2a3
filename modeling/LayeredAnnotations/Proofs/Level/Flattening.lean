import LayeredAnnotations.Proofs.Level.Aggregation

namespace LayeredAnnotations

universe u

namespace Keyed

variable {α : Type}

theorem fill_fill (m n other : Keyed α) : (m.fill n).fill other = m.fill (n.fill other) := by
  induction other using List.reverseRecOn with
  | nil => rfl
  | append_singleton other entry ih =>
    obtain ⟨key, a⟩ := entry
    rw [fill_concat, fill_concat, ih, putAbsent, putAbsent]
    by_cases hkey : key ∈ keys (n.fill other)
    · have hkey' : key ∈ keys (m.fill (n.fill other)) := (mem_keys_fill _ _ key).mpr (.inr hkey)
      rw [if_pos ((has_iff_mem_keys _ key).mpr hkey), if_pos ((has_iff_mem_keys _ key).mpr hkey')]
    · rw [if_neg (mt (has_iff_mem_keys _ key).mp hkey), fill_concat, putAbsent]

theorem foldl_fill_fill (m n : Keyed α) (others : List (Keyed α)) :
    others.foldl fill (m.fill n) = m.fill (others.foldl fill n) := by
  induction others generalizing n with
  | nil => rfl
  | cons other others ih => rw [List.foldl_cons, List.foldl_cons, fill_fill, ih]

end Keyed

namespace Logged
variable {α : Type u} {β : Type}

theorem ext {x y : Logged β} (hvalue : x.value = y.value) (hlog : x.log = y.log) : x = y := by
  cases x
  cases y
  exact congr (congrArg mk hvalue) hlog

theorem bind_assoc {α β γ : Type} (x : Logged α) (f : α → Logged β) (g : β → Logged γ) :
    x >>= f >>= g = x >>= fun a => f a >>= g := by
  simp only [bind, List.append_assoc]

-- Asks somebody else if there is no answer.
def orElse (x y : Logged (Option β)) : Logged (Option β) :=
  x >>= fun
    | some b => pure (some b)
    | none => y

theorem orElse_assoc (x y z : Logged (Option β)) :
    (x.orElse y).orElse z = x.orElse (y.orElse z) := by
  simp only [orElse, bind_assoc]
  congr 1
  funext b?
  cases b? <;> rfl

theorem orElse_none (x : Logged (Option β)) : x.orElse (pure none) = x := by
  apply ext
  · rw [orElse, value_bind]
    cases x.value <;> rfl
  · rw [orElse, log_bind]
    cases x.value <;> exact List.append_nil x.log

theorem first_cons (ask : α → Logged (Option β)) (a : α) (as : List α) :
    first ask (a :: as) = (ask a).orElse (first ask as) := rfl

theorem first_append (ask : α → Logged (Option β)) (as bs : List α) :
    first ask (as ++ bs) = (first ask as).orElse (first ask bs) := by
  induction as with
  | nil => rfl
  | cons a rest ih => rw [List.cons_append, first_cons, first_cons, ih, orElse_assoc]

theorem first_singleton (ask : α → Logged (Option β)) (a : α) : first ask [a] = ask a :=
  orElse_none (ask a)

def join (x y : Logged (List β)) : Logged (List β) :=
  x >>= fun answer => y >>= fun others => pure (answer ++ others)

theorem concat_append (ask : α → Logged (List β)) (as bs : List α) :
    concat ask (as ++ bs) = (concat ask as).join (concat ask bs) := by
  apply ext
  · simp only [join, value_bind, value_pure, value_concat, List.flatMap_append]
  · simp only [join, log_bind, log_pure, log_concat, List.flatMap_append, List.append_nil]

theorem concat_singleton (ask : α → Logged (List β)) (a : α) : concat ask [a] = ask a := by
  apply ext
  · rw [value_concat, List.flatMap_singleton]
  · rw [log_concat, List.flatMap_singleton]

end Logged

theorem firstNonEmpty_append {α : Type u} {β : Type} (f : α → List β) (as bs : List α) :
    firstNonEmpty f (as ++ bs) =
      if (firstNonEmpty f as).isEmpty then firstNonEmpty f bs else firstNonEmpty f as := by
  induction as with
  | nil => rfl
  | cons a rest ih =>
    rw [List.cons_append, firstNonEmpty, firstNonEmpty]
    cases h : f a with
    | nil => exact ih
    | cons b bs => rfl

theorem firstNonEmpty_singleton {α : Type u} {β : Type} (f : α → List β) (a : α) :
    firstNonEmpty f [a] = f a := by
  rw [firstNonEmpty]
  cases f a <;> rfl

namespace Occurrence

-- What there is to an occurrence apart from its defaults.
def bare (o : Occurrence) : String × Members := (o.name, o.members)

def fillBare : Option (String × Members) → Option (String × Members) → Option (String × Members)
  | some (name, m), some (_, n) => some (name, m.fill n)
  | o?, none => o?
  | none, p? => p?

def mergeBare : List Occurrence → Option (String × Members)
  | [] => none
  | o :: others => some (o.name, (others.map (·.members)).foldl Keyed.fill o.members)

theorem bare_merge (o : Occurrence) (others : List Occurrence) (defaults : Members) :
    some (o.merge others defaults).bare = mergeBare (o :: others) := by
  rw [bare, name_merge, members_merge, mergeBare]

theorem mergeBare_append (os ps : List Occurrence) :
    mergeBare (os ++ ps) = fillBare (mergeBare os) (mergeBare ps) := by
  cases os with
  | nil => cases ps <;> rfl
  | cons o os =>
    cases ps with
    | nil => rw [List.append_nil]; rfl
    | cons p ps =>
      simp only [List.cons_append, mergeBare, fillBare, List.map_append, List.map_cons,
        List.foldl_append, List.foldl_cons, Keyed.foldl_fill_fill]

end Occurrence

namespace Answers

theorem map_bare_merged? (levels : List Answers) (name : String) :
    (merged? levels name).map Occurrence.bare =
      Occurrence.mergeBare (levels.filterMap (·.ask (.find? name))) := by
  rw [merged?]
  split
  · next h => rw [h]; rfl
  · next o h => rw [h]; rfl
  · next o others _ h => rw [h, ← Occurrence.bare_merge o others (defaultsAmong levels name)]; rfl

theorem merged?_singleton (a : Answers) (name : String) :
    merged? [a] name = a.ask (.find? name) := by
  rw [merged?, List.filterMap_cons]
  cases a.ask (.find? name) <;> rfl

end Answers

-- Whether two answers to a question are the same. Where one occurrence is put together from those of
-- several levels, its defaults are not looked at.
def Question.Agree {α : Type} (q : Question α) (answer other : α) : Prop :=
  match q, answer, other with
  | .find? _, o?, p? => o?.map Occurrence.bare = p?.map Occurrence.bare
  | _, a, b => a = b

namespace Answers

-- An answer of all levels that is put together from those of two parts can have another part in
-- the middle that answers as one.
theorem answer_middle {β : Type} {f : List Answers → β} {join : β → β → β}
    (happend : ∀ as bs, f (as ++ bs) = join (f as) (f bs)) {a : Answers} {levels : List Answers}
    (ha : f [a] = f levels) (before after : List Answers) :
    f (before ++ a :: after) = f (before ++ (levels ++ after)) := by
  rw [← List.singleton_append, happend, happend, happend, happend, ha]

section Nested

variable {declared first first' : Answers} {ancestors before after rest rest' : List Answers}

-- `first` and `rest` are levels with a layered one among them, and `first'` and `rest'` the same
-- with its levels in its place.
variable (hnested : first :: rest = before ++ layered declared ancestors :: after)
  (hflat : first' :: rest' = before ++ (declared :: ancestors ++ after))

include hnested hflat

theorem answer_nested {β : Type} (f : List Answers → β) (join : β → β → β)
    (happend : ∀ as bs, f (as ++ bs) = join (f as) (f bs))
    (ha : f [layered declared ancestors] = f (declared :: ancestors)) :
    f (first :: rest) = f (first' :: rest') := by
  rw [hnested, hflat]
  exact answer_middle happend ha before after

theorem ask_first_nested {β : Type} (q : Question β)
    (hq : (layered declared ancestors).ask q = declared.ask q) : first.ask q = first'.ask q := by
  -- the first level is the same, unless it is the layered one
  cases before with
  | nil =>
    obtain ⟨rfl, -⟩ := List.cons.inj hnested
    obtain ⟨rfl, -⟩ := List.cons.inj hflat
    exact hq
  | cons b before =>
    obtain ⟨rfl, -⟩ := List.cons.inj hnested
    obtain ⟨rfl, -⟩ := List.cons.inj hflat
    rfl

theorem any_nested (q : Question Bool)
    (hq : (layered declared ancestors).ask q = (declared :: ancestors).any (·.ask q)) :
    (first :: rest).any (·.ask q) = (first' :: rest').any (·.ask q) := by
  refine answer_nested hnested hflat (fun levels => levels.any (·.ask q)) (· || ·) ?_ ?_
  · intro as bs
    exact List.any_append
  · simp only [List.any_cons, List.any_nil, Bool.or_false, hq]

theorem flatMap_nested {β : Type} (q : Question (List β))
    (hq : (layered declared ancestors).ask q = (declared :: ancestors).flatMap (·.ask q)) :
    (first :: rest).flatMap (·.ask q) = (first' :: rest').flatMap (·.ask q) := by
  refine answer_nested hnested hflat (fun levels => levels.flatMap (·.ask q)) (· ++ ·) ?_ ?_
  · intro as bs
    exact List.flatMap_append
  · rw [List.flatMap_singleton, hq]

theorem findSome?_nested {β : Type} (q : Question (Option β))
    (hq : (layered declared ancestors).ask q = (declared :: ancestors).findSome? (·.ask q)) :
    (first :: rest).findSome? (·.ask q) = (first' :: rest').findSome? (·.ask q) := by
  refine answer_nested hnested hflat (fun levels => levels.findSome? (·.ask q)) Option.or ?_ ?_
  · intro as bs
    exact List.findSome?_append
  · rw [List.findSome?_singleton, hq]

theorem firstNonEmpty_nested {β : Type} (q : Question (List β))
    (hq : (layered declared ancestors).ask q =
      firstNonEmpty (fun l : Answers => l.ask q) (declared :: ancestors)) :
    firstNonEmpty (fun l : Answers => l.ask q) (first :: rest) =
      firstNonEmpty (fun l : Answers => l.ask q) (first' :: rest') := by
  refine answer_nested hnested hflat (firstNonEmpty fun l : Answers => l.ask q)
    (fun xs ys => if xs.isEmpty then ys else xs) (firstNonEmpty_append _) ?_
  rw [firstNonEmpty_singleton, hq]

theorem keepFirst_nested {β : Type} {r : β → β → Bool} (htrans : ∀ a b c, r a b → r b c → r a c)
    (q : Question (List β))
    (hq : (layered declared ancestors).ask q =
      keepFirst r ((declared :: ancestors).flatMap (·.ask q))) :
    keepFirst r ((first :: rest).flatMap (·.ask q)) =
      keepFirst r ((first' :: rest').flatMap (·.ask q)) := by
  refine answer_nested hnested hflat (fun levels => keepFirst r (levels.flatMap (·.ask q)))
    (fun xs ys => keepFirst r (xs ++ ys)) ?_ ?_
  · intro as bs
    rw [List.flatMap_append, keepFirst_append htrans]
  · rw [List.flatMap_singleton, hq, keepFirst_keepFirst htrans]

theorem find?_nested (name : String) :
    (merged? (first :: rest) name).map Occurrence.bare =
      (merged? (first' :: rest') name).map Occurrence.bare := by
  refine answer_nested hnested hflat (fun levels => (merged? levels name).map Occurrence.bare)
    Occurrence.fillBare ?_ ?_
  · intro as bs
    simp only [map_bare_merged?, List.filterMap_append, Occurrence.mergeBare_append]
  · rw [merged?_singleton]
    rfl

theorem agree_nested {β : Type} (q : Question β) :
    q.Agree ((layered first rest).ask q) ((layered first' rest').ask q) := by
  cases q with
  | isEmpty =>
    refine answer_nested hnested hflat (fun levels => levels.all (·.ask .isEmpty)) (· && ·) ?_ ?_
    · intro as bs
      exact List.all_append
    · exact Bool.and_true _
  | hasExpressions => exact any_nested hnested hflat .hasExpressions rfl
  | takesMapper => rfl
  | has name => exact any_nested hnested hflat (.has name) rfl
  | hasDeclared name => exact ask_first_nested hnested hflat (.hasDeclared name) rfl
  | knows name => exact any_nested hnested hflat (.knows name) rfl
  | knowsDeclared name => exact ask_first_nested hnested hflat (.knowsDeclared name) rfl
  | names =>
    have hunion : ∀ levels : List Answers, orderedUnion (levels.map (·.ask .names)) =
        keepFirst (· == ·) (levels.flatMap (·.ask .names)) := by
      intro levels
      rw [orderedUnion_eq, List.flatMap_def]
    have hkept := keepFirst_nested hnested hflat (r := (· == ·))
      (fun a b c hab hbc => beq_iff_eq.mpr ((beq_iff_eq.mp hab).trans (beq_iff_eq.mp hbc)))
      .names (hunion _)
    exact (hunion _).trans (hkept.trans (hunion _).symm)
  | declaredNames => exact ask_first_nested hnested hflat .declaredNames rfl
  | carriers name => exact flatMap_nested hnested hflat (.carriers name) rfl
  | declaredCarriers name => exact ask_first_nested hnested hflat (.declaredCarriers name) rfl
  | find? name => exact find?_nested hnested hflat name
  | findDeclared? name => exact ask_first_nested hnested hflat (.findDeclared? name) rfl
  | occurrences name =>
    exact keepFirst_nested hnested hflat (r := (· == ·)) (fun _ _ _ => Occurrence.beq_trans)
      (.occurrences name) rfl
  | declaredOccurrences name =>
    exact ask_first_nested hnested hflat (.declaredOccurrences name) rfl
  | defaults name => exact firstNonEmpty_nested hnested hflat (.defaults name) rfl
  | container? name => exact findSome?_nested hnested hflat (.container? name) rfl
  | isRepeatable name => exact any_nested hnested hflat (.isRepeatable name) rfl
  | scalar mapper name member accept =>
    exact answer_nested hnested hflat
      (Logged.first fun l : Answers => l.ask (.scalar mapper name member accept)) Logged.orElse
      (Logged.first_append _) (Logged.first_singleton _ _)
  | array mapper name member accept =>
    exact answer_nested hnested hflat
      (Logged.concat fun l : Answers => l.ask (.array mapper name member accept)) Logged.join
      (Logged.concat_append _) (Logged.concat_singleton _ _)
  | explicit name => exact firstNonEmpty_nested hnested hflat (.explicit name) rfl
  | isExplicit name member => exact any_nested hnested hflat (.isExplicit name member) rfl
  | default? name member => exact findSome?_nested hnested hflat (.default? name member) rfl
  | all => exact flatMap_nested hnested hflat .all rfl
  | allDeclared => exact ask_first_nested hnested hflat .allDeclared rfl

end Nested

end Answers

namespace Level

theorem answers_ofOutermost {levels : List Level} (h : levels ≠ []) :
    ∃ declared ancestors, (ofOutermost levels).answers = .layered declared ancestors ∧
      declared :: ancestors = levels.reverse.map answers := by
  rw [ofOutermost]
  cases hlevels : levels.reverse with
  | nil => exact absurd (List.reverse_eq_nil_iff.mp hlevels) h
  | cons declared ancestors =>
    exact ⟨declared.answers, ancestors.map answers, answers_layered declared ancestors, rfl⟩

-- A layered level among other levels, at either end or between them, answers as if its levels stood
-- there in its place. Every question is answered alike, lookups with whatever they log; only the
-- defaults of an occurrence that several levels have a part in may be others.
theorem answers_ofOutermost_nested (outer : List Level) (l : Level) (inner own : List Level)
    {α : Type} (q : Question α) :
    q.Agree ((ofOutermost (outer ++ [ofOutermost (l :: inner)] ++ own)).answers.ask q)
      ((ofOutermost (outer ++ (l :: inner) ++ own)).answers.ask q) := by
  obtain ⟨declared, ancestors, hlayered, hinner⟩ :=
    answers_ofOutermost (List.cons_ne_nil l inner)
  have hwholes : outer ++ [ofOutermost (l :: inner)] ++ own ≠ [] ∧
      outer ++ (l :: inner) ++ own ≠ [] := by simp
  obtain ⟨first, rest, hwhole, hlevels⟩ := answers_ofOutermost hwholes.1
  obtain ⟨first', rest', hwhole', hlevels'⟩ := answers_ofOutermost hwholes.2
  have hnested : first :: rest =
      own.reverse.map answers ++ .layered declared ancestors :: outer.reverse.map answers := by
    simp only [hlevels, ← hlayered, List.reverse_append, List.reverse_cons, List.map_append,
      List.map_cons, List.append_assoc, List.singleton_append]
  have hflat : first' :: rest' =
      own.reverse.map answers ++ (declared :: ancestors ++ outer.reverse.map answers) := by
    simp only [hlevels', hinner, List.reverse_append, List.map_append, List.append_assoc]
  rw [hwhole, hwhole']
  exact Answers.agree_nested hnested hflat q

end Level

end LayeredAnnotations
