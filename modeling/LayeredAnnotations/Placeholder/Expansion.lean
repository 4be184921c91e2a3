import LayeredAnnotations.Placeholder.Resolver
import LayeredAnnotations.Value.Basic

namespace LayeredAnnotations

namespace Value

def hasPlaceholder (v : Value) : Bool := v.hasString containsPlaceholder

mutual

-- Rewrites the strings with expressions in them, also inside arrays but not inside nested
-- annotations.
def expandWith (resolve : String → Except Failure String) :
    Value → Except Failure Value
  | .string s => if containsPlaceholder s then (resolve s).map .string else .ok (.string s)
  | .array items => (expandItems resolve items).map .array
  | v => .ok v
termination_by structural v => v

-- The first failure from the left ends it.
def expandItems (resolve : String → Except Failure String) :
    List Value → Except Failure (List Value)
  | [] => .ok []
  | v :: rest => do
    let w ← v.expandWith resolve
    let others ← expandItems resolve rest
    pure (w :: others)
termination_by structural vs => vs

end

-- Leaving expressions that stand for nothing as they are, expansion cannot fail.
def expand (resolver : Resolver) (lenient : Bool) (v : Value) : Except Failure Value :=
  v.expandWith (if lenient then fun s => .ok (resolver.lenient s) else resolver.strict)

end Value

end LayeredAnnotations
