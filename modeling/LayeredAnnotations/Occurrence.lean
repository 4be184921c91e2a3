import LayeredAnnotations.Failure
import LayeredAnnotations.Value.Reading

namespace LayeredAnnotations

namespace Occurrence

-- A member read as `α`, from its explicit value or else its default. An explicit value that cannot
-- be read hides the default.
def read? (α : Type) [OfValue α] (o : Occurrence) (member : String) : Option α :=
  (o.get? member).bind (Value.read? α)

def readAll (α : Type) [OfValue α] (o : Occurrence) (member : String) : List α :=
  (o.read? (List α) member).getD []

def isTrue (o : Occurrence) (member : String) : Bool := (o.read? Bool member).getD false

def isFalse (o : Occurrence) (member : String) : Bool := !o.isTrue member

def constant? (α : Type) [Named α] (o : Occurrence) (member : String) : Option α :=
  (o.get? member).bind (Value.constant? α)

def constants (α : Type) [Named α] (o : Occurrence) (member : String) : List α :=
  match o.get? member with
  | some v => v.elements.filterMap (Value.constant? α)
  | none => []

-- The value of a member that has to be there.
def demand (o : Occurrence) (member : String) : Except Failure Value :=
  match o.get? member with
  | some v => .ok v
  | none => .error (.missing o.name member)

-- What a reading gave, which has to be something.
def demandReading {α : Type} (o : Occurrence) (member expected : String) :
    Option α → Except Failure α
  | some a => .ok a
  | none => .error (.unconvertible o.name member expected)

def required (α : Type) [OfValue α] (o : Occurrence) (member : String) : Except Failure α := do
  let v ← o.demand member
  o.demandReading member (OfValue.expected α) (v.read? α)

-- A member may be missing, but what is there has to be readable.
def optional (α : Type) [OfValue α] (o : Occurrence) (member : String) :
    Except Failure (Option α) :=
  (o.get? member).mapM fun v => o.demandReading member (OfValue.expected α) (v.read? α)

def requiredConstant (α : Type) [Named α] (o : Occurrence) (member : String) :
    Except Failure α := do
  let v ← o.demand member
  o.demandReading member "enum" (v.constant? α)

end Occurrence

-- Types that stand for an annotation of a given name and are built from its members.
class OfOccurrence (α : Type) where
  name : String
  build : Occurrence → Except Failure α

end LayeredAnnotations
