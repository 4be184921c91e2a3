import LayeredAnnotations.Json.Number
import LayeredAnnotations.Json.Reader
import LayeredAnnotations.Value.Reading

namespace LayeredAnnotations

namespace Json

def boolean? : Tree → Option Bool
  | .bool b => some b
  | _ => none

def text? : Tree → Option String
  | .string s => s
  | _ => none

def int? : Tree → Option Int
  | .number x => integer? x
  | _ => none

def float? : Tree → Option Binary64
  | .number x => double? x
  | _ => none

-- The fields of a record in the order of `names`. An object may have other fields, but none of
-- these twice; a list has them in order and may stop early.
def fields? (names : List String) : Tree → Option (List (Option Tree))
  | .object entries => do
    let entries ← entries.mapM fun (key, t) => key.map fun key => (key, t)
    if names.all fun name => (entries.filter (·.1 == name)).length ≤ 1 then
      some (names.map fun name => entries.lookup name)
    else none
  | .array items =>
    if items.length ≤ names.length then
      some (items.map some ++ List.replicate (names.length - items.length) none)
    else none
  | _ => none

-- The entries of a map. A later entry takes the place of an earlier one with its key.
def map? {α : Type} (decode : Tree → Option α) : Tree → Option (Keyed α)
  | .object entries => do
    let entries ← entries.mapM fun (key, t) => do
      let key ← key
      let a ← decode t
      some (key, a)
    some (Keyed.ofEntries entries)
  | _ => none

-- Objects and lists can be nested this deep.
def depthLimit : Nat := 127

end Json

open Json

-- The name is taken as it is.
def TypeName.ofTree? (t : Tree) : Option TypeName :=
  match fields? ["name"] t with
  | some [some name] => (text? name).map TypeName.mk
  | _ => none

mutual

-- A value is an object with one field, named for the kind of the value. `depth` is the number of
-- objects and lists that may be open at once.
def Value.ofTree? : Nat → Tree → Option Value
  | 0, _ => none
  | depth + 1, .object [(some kind, t)] =>
    match kind with
    | "Bool" => (boolean? t).map .bool
    | "Int" => ((int? t).bind int32?).map .int
    | "Long" => ((int? t).bind int64?).map .long
    | "Double" => (float? t).map .double
    | "String" => (text? t).map .string
    | "Class" => if depth = 0 then none else (TypeName.ofTree? t).map .type
    | "Enum" => (text? t).map .enum
    | "Array" =>
      match depth, t with
      | depth + 1, .array items => (items.mapM fun item => Value.ofTree? depth item).map .array
      | _, _ => none
    | "Annotation" => (Occurrence.ofTree? depth t).map .nested
    | _ => none
  | _, _ => none
termination_by structural depth => depth

-- The name and the explicit members. Defaults are not stored.
def Occurrence.ofTree? : Nat → Tree → Option Occurrence
  | 0, _ => none
  | depth + 1, t =>
    match fields? ["annotation_name", "values"] t with
    | some [some name, some values] => do
      let name ← text? name
      let members ← membersOfTree? depth values
      some ⟨name, members, []⟩
    | _ => none
termination_by structural depth => depth

def membersOfTree? : Nat → Tree → Option Members
  | 0, _ => none
  | depth + 1, t => map? (fun v => Value.ofTree? depth v) t
termination_by structural depth => depth

end

def Value.ofJson? (text : String) : Option Value := (Json.read? text).bind (ofTree? depthLimit)

def Occurrence.ofJson? (text : String) : Option Occurrence :=
  (Json.read? text).bind (ofTree? depthLimit)

def TypeName.ofJson? (text : String) : Option TypeName := (Json.read? text).bind ofTree?

end LayeredAnnotations
