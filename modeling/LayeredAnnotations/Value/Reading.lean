import LayeredAnnotations.Binary64.Reading
import LayeredAnnotations.Log.Severity
import LayeredAnnotations.Value.Text

namespace LayeredAnnotations

-- Doubles turned into strings are written out without exponent, and whole ones without a point.
def Layout.plain : Layout where
  positional := none
  pointZero := false
  plus := false
  tie := .up

-- Types that a value can be read as.
class OfValue (α : Type) where
  -- the name of the type in messages
  expected : String
  ofValue? : Value → Option α

-- Enumerations whose constants are known by name.
class Named (α : Type) where
  ofName? : String → Option α

instance : Named Severity := ⟨fun name => (Severity.parse name).toOption⟩

namespace Value

def read? (α : Type) [OfValue α] (v : Value) : Option α := OfValue.ofValue? v

def readable (α : Type) [OfValue α] (v : Value) : Bool := (v.read? α).isSome

-- The readings below are for values that are not arrays.
def scalarString? : Value → Option String
  | .bool b => some (boolText b)
  | .int n => some (intText n.toInt)
  | .long n => some (intText n.toInt)
  | .double d => some (Layout.plain.text d)
  | .string s => some s
  | .type t => some t.name
  | .enum name => some name
  | .array _ => none
  | .nested _ => none

def scalarBool? : Value → Option Bool
  | .bool b => some b
  | .string s =>
    match Text.lowercase (Text.trimmed s) with
    | "true" => some true
    | "false" => some false
    | _ => none
  | _ => none

-- The integer that a value stands for, of any size. Only a double without fraction is one.
def scalarInt? : Value → Option Int
  | .int n => some n.toInt
  | .long n => some n.toInt
  | .double d => d.toInt?
  | .string s => readInt? (Text.trimmed s)
  | _ => none

def scalarDouble? : Value → Option Binary64
  | .int n => some (.ofInt n.toInt)
  | .long n => some (.ofInt n.toInt)
  | .double d => some d
  | .string s => Binary64.read? (Text.trimmed s)
  | _ => none

def scalarType? : Value → Option TypeName
  | .type t => some t
  | .string s => TypeName.parse? s
  | _ => none

def scalarNested? : Value → Option Occurrence
  | .nested o => some o
  | _ => none

def constantName? : Value → Option String
  | .enum name => some name
  | .string name => some name
  | _ => none

-- A constant by its name, whether given as a constant or as a string.
def constant? (α : Type) [Named α] (v : Value) : Option α :=
  v.leading?.bind fun w => w.constantName?.bind fun name => Named.ofName? (Text.trimmed name)

def isConstant (α : Type) [Named α] (v : Value) : Bool := (v.constant? α).isSome

end Value

-- Numbers outside the range are refused, never cut off.
def int32? (n : Int) : Option Int32 :=
  if -0x80000000 ≤ n ∧ n < 0x80000000 then some (Int32.ofInt n) else none

def int64? (n : Int) : Option Int64 :=
  if -0x8000000000000000 ≤ n ∧ n < 0x8000000000000000 then some (Int64.ofInt n) else none

instance : OfValue Value where
  expected := "value"
  ofValue? := some

instance : OfValue String where
  expected := "string"
  ofValue? v := v.leading?.bind Value.scalarString?

instance : OfValue Bool where
  expected := "boolean"
  ofValue? v := v.leading?.bind Value.scalarBool?

instance : OfValue Int32 where
  expected := "int"
  ofValue? v := (v.leading?.bind Value.scalarInt?).bind int32?

instance : OfValue Int64 where
  expected := "long"
  ofValue? v := (v.leading?.bind Value.scalarInt?).bind int64?

instance : OfValue Binary64 where
  expected := "double"
  ofValue? v := v.leading?.bind Value.scalarDouble?

instance : OfValue TypeName where
  expected := "class"
  ofValue? v := v.leading?.bind Value.scalarType?

instance : OfValue Occurrence where
  expected := "annotation"
  ofValue? v := v.leading?.bind Value.scalarNested?

-- Elements that cannot be read are left out; a value that is no array has to be readable itself.
instance {α : Type} [OfValue α] : OfValue (List α) where
  expected := "array"
  ofValue?
    | .array items => some (items.filterMap (Value.read? α))
    | v => (v.read? α).map ([·])

end LayeredAnnotations
