import LayeredAnnotations.Value.Basic

namespace LayeredAnnotations

namespace Value

mutual

-- Values are equal when they agree in kind and content. The order of members does not matter,
-- nor do defaults; doubles are compared by their bits.
def beq : Value → Value → Bool
  | .bool a, .bool b => a == b
  | .int a, .int b => a == b
  | .long a, .long b => a == b
  | .double a, .double b => a == b
  | .string a, .string b => a == b
  | .type a, .type b => a == b
  | .enum a, .enum b => a == b
  | .array as, .array bs => beqItems as bs
  | .nested ⟨a, as, _⟩, .nested ⟨b, bs, _⟩ =>
    a == b && as.length == bs.length && includedIn as bs
  | _, _ => false
termination_by structural v => v

def beqItems : List Value → List Value → Bool
  | [], [] => true
  | a :: as, b :: bs => beq a b && beqItems as bs
  | _, _ => false
termination_by structural vs => vs

-- Every entry has an equal one under the same key.
def includedIn : List (String × Value) → List (String × Value) → Bool
  | [], _ => true
  | (key, a) :: rest, bs =>
    (match bs.lookup key with
      | some b => beq a b
      | none => false) && includedIn rest bs
termination_by structural m => m

end

instance : BEq Value := ⟨beq⟩

end Value

namespace Occurrence

def beq (a b : Occurrence) : Bool :=
  a.name == b.name && a.members.length == b.members.length
    && Value.includedIn a.members b.members

instance : BEq Occurrence := ⟨beq⟩

-- Keeps the first of equal occurrences, in order.
def distinct (os : List Occurrence) : List Occurrence :=
  os.foldl (fun kept o => if kept.any (· == o) then kept else kept ++ [o]) []

end Occurrence

end LayeredAnnotations
