import LayeredAnnotations.Level.Question
import LayeredAnnotations.Occurrence

namespace LayeredAnnotations

namespace Answers

-- A member as it is, or its default.
def value (a : Answers) (name member : String) : Logged (Option Value) :=
  a.ask (.scalar none name member fun _ => true)

def read? (α : Type) [OfValue α] (a : Answers) (mapper : Option Mapper) (name member : String) :
    Logged (Option α) := do
  let v? ← a.ask (.scalar mapper name member (Value.readable α))
  pure (v?.bind (Value.read? α))

def readAll (α : Type) [OfValue α] (a : Answers) (mapper : Option Mapper) (name member : String) :
    Logged (List α) := do
  let vs ← a.ask (.array mapper name member (Value.readable α))
  pure (vs.filterMap (Value.read? α))

def constant? (α : Type) [Named α] (a : Answers) (mapper : Option Mapper)
    (name member : String) : Logged (Option α) := do
  let v? ← a.ask (.scalar mapper name member (Value.isConstant α))
  pure (v?.bind (Value.constant? α))

def constants (α : Type) [Named α] (a : Answers) (mapper : Option Mapper)
    (name member : String) : Logged (List α) := do
  let vs ← a.ask (.array mapper name member (Value.isConstant α))
  pure (vs.filterMap (Value.constant? α))

def isTrue (a : Answers) (mapper : Option Mapper) (name member : String) : Logged Bool := do
  let b? ← a.read? Bool mapper name member
  pure (b?.getD false)

-- What is absent counts as false.
def isFalse (a : Answers) (mapper : Option Mapper) (name member : String) : Logged Bool := do
  let b ← a.isTrue mapper name member
  pure !b

def readDefault? (α : Type) [OfValue α] (a : Answers) (name member : String) : Option α :=
  (a.ask (.default? name member)).bind (Value.read? α)

-- The explicit members that can be read, in order.
def readExplicit (α : Type) [OfValue α] (a : Answers) (name : String) : Keyed α :=
  (a.ask (.explicit name)).filterMap fun (member, v) => (v.read? α).map fun x => (member, x)

def build (α : Type) [OfOccurrence α] (a : Answers) : Except Failure (Option α) :=
  (a.ask (.find? (OfOccurrence.name α))).mapM OfOccurrence.build

def buildDeclared (α : Type) [OfOccurrence α] (a : Answers) : Except Failure (Option α) :=
  (a.ask (.findDeclared? (OfOccurrence.name α))).mapM OfOccurrence.build

-- Takes the explicit members of another annotation, with the defaults of its own.
def buildFrom (α : Type) [OfOccurrence α] (a : Answers) (source : String) :
    Except Failure (Option α) :=
  (a.ask (.find? source)).mapM fun o =>
    let name := OfOccurrence.name α
    OfOccurrence.build ⟨name, o.members, a.ask (.defaults name)⟩

def buildAll (α : Type) [OfOccurrence α] (a : Answers) : Except Failure (List α) :=
  (a.ask (.occurrences (OfOccurrence.name α))).mapM OfOccurrence.build

def buildAllDeclared (α : Type) [OfOccurrence α] (a : Answers) : Except Failure (List α) :=
  (a.ask (.declaredOccurrences (OfOccurrence.name α))).mapM OfOccurrence.build

end Answers

end LayeredAnnotations
