import LayeredAnnotations.Text.Blank
import LayeredAnnotations.Text.Word

namespace LayeredAnnotations

-- The name of a type. Names that come from `parse?` follow the grammar of `isTypeName`; a name
-- read from stored data is taken as it is.
structure TypeName where
  name : String
deriving DecidableEq, Repr

namespace TypeName

def isIdentifierStart (c : Char) : Bool := c.isAlpha || c == '_' || c == '$'

def isIdentifierPart (c : Char) : Bool := Text.isWord c || c == '$'

-- How far a name has been read.
inductive Position where
  -- in front of an identifier
  | start
  | inside
  -- behind the opening bracket of a dimension
  | bracket
  -- behind a whole dimension
  | dimension
  | refused
deriving DecidableEq, Repr

namespace Position

def next : Position → Char → Position
  | .start, c => if isIdentifierStart c then .inside else .refused
  | .inside, c =>
    if isIdentifierPart c then .inside
    else if c = '.' then .start
    else if c = '[' then .bracket
    else .refused
  | .bracket, c => if c = ']' then .dimension else .refused
  | .dimension, c => if c = '[' then .bracket else .refused
  | .refused, _ => .refused

-- Whether a name can end here.
def isEnd : Position → Bool
  | .inside | .dimension => true
  | _ => false

end Position

-- Identifiers joined by single dots, then any number of dimensions `[]`.
def isTypeName (s : String) : Bool := (s.foldl Position.next .start).isEnd

theorem isTypeName_eq (s : String) :
    isTypeName s = (s.toList.foldl Position.next .start).isEnd := by
  rw [isTypeName, String.foldl_eq_foldl_toList]

-- White space around the name does not belong to it.
def parse? (text : String) : Option TypeName :=
  let name := Text.trimmed text
  if isTypeName name then some ⟨name⟩ else none

-- What follows the last dot, dimensions included.
def simpleName (t : TypeName) : String :=
  String.ofList (t.name.toList.reverse.takeWhile (· != '.')).reverse

-- Names are ordered by their characters' code points.
def compare (a b : TypeName) : Ordering := compareOfLessAndEq a.name b.name

end TypeName

end LayeredAnnotations
