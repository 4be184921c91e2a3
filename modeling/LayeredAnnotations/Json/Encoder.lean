import LayeredAnnotations.Binary64.Layout
import LayeredAnnotations.Json.Printer
import LayeredAnnotations.Value.Basic

namespace LayeredAnnotations

-- In JSON, doubles show a fraction or an exponent, and an exponent has a sign. Numbers of more
-- than sixteen integer digits and those below a hundred-thousandth take the exponent.
def Layout.json : Layout where
  positional := some (-5, 15)
  pointZero := true
  plus := true
  tie := .toEven

namespace Json

def object (entries : List (String × Tree)) : Tree :=
  .object (entries.map fun (key, t) => (some key, t))

def string (s : String) : Tree := .string (some s)

-- Infinities and NaN have no JSON form.
def double (d : Binary64) : Tree := if d.isFinite then .number (Layout.json.numeral d) else .null

end Json

def TypeName.toTree (t : TypeName) : Json.Tree := Json.object [("name", Json.string t.name)]

namespace Value

mutual

-- A value is an object with one field, named for the kind of the value. A nested annotation has
-- its name and its explicit members; defaults are left out.
def toTree : Value → Json.Tree
  | .bool b => Json.object [("Bool", .bool b)]
  | .int n => Json.object [("Int", .number (.ofInt n.toInt))]
  | .long n => Json.object [("Long", .number (.ofInt n.toInt))]
  | .double d => Json.object [("Double", Json.double d)]
  | .string s => Json.object [("String", Json.string s)]
  | .type t => Json.object [("Class", t.toTree)]
  | .enum name => Json.object [("Enum", Json.string name)]
  | .array items => Json.object [("Array", .array (toTrees items))]
  | .nested ⟨name, members, _⟩ =>
    Json.object [("Annotation", Json.object
      [("annotation_name", Json.string name), ("values", .object (toEntries members))])]
termination_by structural v => v

def toTrees : List Value → List Json.Tree
  | [] => []
  | v :: rest => v.toTree :: toTrees rest
termination_by structural vs => vs

def toEntries : List (String × Value) → List (Option String × Json.Tree)
  | [] => []
  | (key, v) :: rest => (some key, v.toTree) :: toEntries rest
termination_by structural m => m

end

def toJson (v : Value) : String := v.toTree.text

end Value

def Occurrence.toTree (o : Occurrence) : Json.Tree :=
  Json.object
    [("annotation_name", Json.string o.name), ("values", .object (Value.toEntries o.members))]

def Occurrence.toJson (o : Occurrence) : String := o.toTree.text

def TypeName.toJson (t : TypeName) : String := t.toTree.text

end LayeredAnnotations
