import LayeredAnnotations.Level.Question
import LayeredAnnotations.Value.Equality

namespace LayeredAnnotations

universe u

-- The first list that is not empty. Those behind it are not asked for.
def firstNonEmpty {α : Type u} {β : Type} (f : α → List β) : List α → List β
  | [] => []
  | a :: rest =>
    match f a with
    | [] => firstNonEmpty f rest
    | b :: bs => b :: bs

-- Names in the order in which they first appear.
def orderedUnion (lists : List (List String)) : List String :=
  lists.flatten.foldl (fun names name => if names.contains name then names else names ++ [name]) []

-- One occurrence from those that several levels have: members of an earlier one win.
def Occurrence.merge (o : Occurrence) (others : List Occurrence) (defaults : Members) :
    Occurrence :=
  others.foldl (fun merged other => merged.fill other defaults) o

namespace Answers

-- The defaults of the first level that has any.
def defaultsAmong (levels : List Answers) (name : String) : Members :=
  firstNonEmpty (fun (l : Answers) => l.ask (.defaults name)) levels

-- The occurrence of a single level is left as it is, defaults included.
def merged? (levels : List Answers) (name : String) : Option Occurrence :=
  match levels.filterMap (·.ask (.find? name)) with
  | [] => none
  | [o] => some o
  | o :: others => some (o.merge others (defaultsAmong levels name))

-- Several levels as one, the most specific first. What is declared is what the first level
-- declares; everything else takes all levels into account.
def layered (declared : Answers) (ancestors : List Answers) : Answers where
  ask {α} (q : Question α) :=
    let levels := declared :: ancestors
    match q with
    | .isEmpty => levels.all (·.ask .isEmpty)
    | .hasExpressions => levels.any (·.ask .hasExpressions)
    | .takesMapper => true
    | .has name => levels.any (·.ask (.has name))
    | .knows name => levels.any (·.ask (.knows name))
    | .names => orderedUnion (levels.map (·.ask .names))
    | .carriers name => levels.flatMap (·.ask (.carriers name))
    | .find? name => merged? levels name
    | .occurrences name => Occurrence.distinct (levels.flatMap (·.ask (.occurrences name)))
    | .defaults name => defaultsAmong levels name
    | .container? name => levels.findSome? (·.ask (.container? name))
    | .isRepeatable name => levels.any (·.ask (.isRepeatable name))
    | .scalar mapper name member accept =>
      Logged.first (fun l => l.ask (.scalar mapper name member accept)) levels
    | .array mapper name member accept =>
      Logged.concat (fun l => l.ask (.array mapper name member accept)) levels
    | .explicit name => firstNonEmpty (fun l => l.ask (.explicit name)) levels
    | .isExplicit name member => levels.any (·.ask (.isExplicit name member))
    | .default? name member => levels.findSome? (·.ask (.default? name member))
    | .all => levels.flatMap (·.ask .all)
    -- the remaining questions are about what is declared
    | q => declared.ask q

end Answers

end LayeredAnnotations
