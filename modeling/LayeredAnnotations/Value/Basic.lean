import LayeredAnnotations.Binary64.Basic
import LayeredAnnotations.Keyed
import LayeredAnnotations.TypeName

namespace LayeredAnnotations

mutual

-- What a member of an annotation can hold.
inductive Value where
  | bool (b : Bool)
  | int (n : Int32)
  | long (n : Int64)
  | double (d : Binary64)
  | string (s : String)
  | type (t : TypeName)
  -- a constant of an enumeration, by name
  | enum (name : String)
  | array (items : List Value)
  | nested (occurrence : Occurrence)

-- One annotation where it stands: its explicit members, and the values that members take when
-- they are not given.
structure Occurrence where
  name : String
  members : List (String × Value)
  defaults : List (String × Value)

end

abbrev Members := Keyed Value

namespace Value

-- The elements of an array; any other value is its own only element.
def elements : Value → List Value
  | .array items => items
  | v => [v]

def isArray : Value → Bool
  | .array _ => true
  | _ => false

-- An array stands for its first element, at any depth; an empty one for nothing.
def leading? : Value → Option Value
  | .array (v :: _) => v.leading?
  | .array [] => none
  | v => some v
termination_by structural v => v

mutual

-- Whether a string satisfies `p`, also inside arrays and the explicit members of nested
-- annotations. Names of types and constants are not strings.
def hasString (p : String → Bool) : Value → Bool
  | .string s => p s
  | .array items => hasStringIn p items
  | .nested ⟨_, members, _⟩ => hasStringAmong p members
  | _ => false
termination_by structural v => v

def hasStringIn (p : String → Bool) : List Value → Bool
  | [] => false
  | v :: rest => v.hasString p || hasStringIn p rest
termination_by structural vs => vs

def hasStringAmong (p : String → Bool) : List (String × Value) → Bool
  | [] => false
  | (_, v) :: rest => v.hasString p || hasStringAmong p rest
termination_by structural vs => vs

end

theorem hasStringIn_eq_any (p : String → Bool) (vs : List Value) :
    hasStringIn p vs = vs.any (hasString p) := by
  induction vs with
  | nil => rfl
  | cons v rest ih => rw [hasStringIn, List.any_cons, ih]

theorem hasStringAmong_eq_any (p : String → Bool) (m : Members) :
    hasStringAmong p m = m.any fun entry => hasString p entry.2 := by
  induction m with
  | nil => rfl
  | cons entry rest ih => rw [hasStringAmong, List.any_cons, ih]

end Value

namespace Occurrence

-- The member that an annotation with a single nameless value gives it to.
def soleMember : String := "value"

def hasMember (o : Occurrence) (member : String) : Bool := Keyed.has o.members member

-- The explicit members of an occurrence that may be missing.
def membersOf : Option Occurrence → Members
  | some o => o.members
  | none => []

-- Explicit members come before defaults.
def get? (o : Occurrence) (member : String) : Option Value :=
  (o.members.lookup member).or (o.defaults.lookup member)

def withDefaults (o : Occurrence) (defaults : Members) : Occurrence := { o with defaults }

-- Members that `o` lacks are filled in from `other`; the given defaults replace those of both.
def fill (o other : Occurrence) (defaults : Members) : Occurrence :=
  ⟨o.name, Keyed.fill o.members other.members, defaults⟩

end Occurrence

end LayeredAnnotations
