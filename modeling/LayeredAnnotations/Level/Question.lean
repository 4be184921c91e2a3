import LayeredAnnotations.Log.Logged
import LayeredAnnotations.Value.Basic

namespace LayeredAnnotations

-- A caller's change to values before they are read.
abbrev Mapper := Value → Value

-- What can be asked about the annotations of an element, by the type of the answer.
inductive Question : Type → Type where
  | isEmpty : Question Bool
  -- whether some value may contain an expression to expand
  | hasExpressions : Question Bool
  -- whether mappers have a say in lookups
  | takesMapper : Question Bool
  | has (name : String) : Question Bool
  | hasDeclared (name : String) : Question Bool
  -- also as an annotation of another annotation
  | knows (name : String) : Question Bool
  | knowsDeclared (name : String) : Question Bool
  | names : Question (List String)
  | declaredNames : Question (List String)
  -- the annotations that carry a given one themselves
  | carriers (name : String) : Question (List String)
  | declaredCarriers (name : String) : Question (List String)
  | find? (name : String) : Question (Option Occurrence)
  | findDeclared? (name : String) : Question (Option Occurrence)
  -- every occurrence, also those grouped in a container
  | occurrences (name : String) : Question (List Occurrence)
  | declaredOccurrences (name : String) : Question (List Occurrence)
  | defaults (name : String) : Question Members
  -- the container of a repeatable annotation
  | container? (name : String) : Question (Option String)
  | isRepeatable (name : String) : Question Bool
  -- a member as one value, if the caller accepts it
  | scalar (mapper : Option Mapper) (name member : String) (accept : Value → Bool) :
      Question (Logged (Option Value))
  -- a member as the elements of an array, of which the caller accepts some
  | array (mapper : Option Mapper) (name member : String) (accept : Value → Bool) :
      Question (Logged (List Value))
  | explicit (name : String) : Question Members
  | isExplicit (name member : String) : Question Bool
  | default? (name member : String) : Question (Option Value)
  | all : Question (List Occurrence)
  | allDeclared : Question (List Occurrence)

-- Somebody who can answer every question.
structure Answers where
  ask : {α : Type} → Question α → α

namespace Answers

-- Finds out whom to ask only when there is a question.
def delayed (a : Unit → Answers) : Answers where
  ask q := (a ()).ask q

theorem delayed_eq (a : Unit → Answers) : delayed a = a () := rfl

-- A host that passes on what has to be known and leaves everything else to follow from that. It
-- expands nothing, so it takes no mapper.
def forwarding (inner : Answers) : Answers where
  ask {α} (q : Question α) := match q with
    | .hasExpressions => false
    | .takesMapper => false
    | .isRepeatable name => (inner.ask (.container? name)).isSome
    | .scalar _ name member accept => inner.ask (.scalar none name member accept)
    | .array _ name member accept => inner.ask (.array none name member accept)
    | .explicit name => Occurrence.membersOf (inner.ask (.find? name))
    | .isExplicit name member => (Occurrence.membersOf (inner.ask (.find? name))).has member
    | .default? name member => (inner.ask (.defaults name)).lookup member
    | .all => (inner.ask .names).filterMap fun name => inner.ask (.find? name)
    | .allDeclared =>
      (inner.ask .declaredNames).filterMap fun name => inner.ask (.findDeclared? name)
    | q => inner.ask q

end Answers

end LayeredAnnotations
