import LayeredAnnotations.Failure
import LayeredAnnotations.Keyed
import LayeredAnnotations.Placeholder.Template
import LayeredAnnotations.Text.Blank

namespace LayeredAnnotations

-- Replaces each expression by what it stands for on its own, or leaves it as it is written.
def resolveEach (resolve : String → Except Failure String) (text : String) : String :=
  (Template.parse text.toList).render fun body =>
    match resolve (Template.written body) with
    | .ok s => s
    | .error _ => Template.written body

-- How a host replaces the expressions in a text.
structure Resolver where
  -- fails on the first expression that stands for nothing
  strict : String → Except Failure String
  lenient : String → String := resolveEach strict

namespace Resolver

-- The key of an expression ends at its first colon; the default is all that follows.
def splitExpression (body : List Char) : List Char × Option (List Char) :=
  match body.dropWhile (· != ':') with
  | [] => (body, none)
  | _ :: default => (body.takeWhile (· != ':'), some default)

-- White space around the key does not belong to it, but around the default it does.
def answer? (properties : Keyed String) (body : List Char) : Option String :=
  let (key, default) := splitExpression body
  (properties.lookup (String.ofList (Text.trim key))).or (default.map String.ofList)

def resolveAll (properties : Keyed String) (text : String) : Except Failure String :=
  let t := Template.parse text.toList
  match t.holes.find? fun (_, body) => (answer? properties body).isNone with
  | some (_, body) => .error (.unresolvable (Template.written body))
  | none => .ok (t.render fun body => (answer? properties body).getD "")

-- Expressions stand for the values of fixed properties.
def ofProperties (properties : Keyed String) : Resolver where
  strict := resolveAll properties

end Resolver

end LayeredAnnotations
