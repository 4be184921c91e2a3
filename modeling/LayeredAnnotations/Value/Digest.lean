import LayeredAnnotations.Value.Equality

namespace LayeredAnnotations

-- What a hasher is fed, piece by piece.
inductive Token where
  -- which kind of value follows
  | kind (n : Nat)
  | bit (b : Bool)
  | int (n : Int32)
  | long (n : Int64)
  | word (n : UInt64)
  | text (s : String)
  | length (n : Nat)
deriving DecidableEq, Repr

namespace Value

mutual

-- The pieces that stand for a value. `finish` turns the pieces of one member into a word: the
-- words of all members are added up, so that their order leaves no trace.
def digest (finish : List Token → UInt64) : Value → List Token
  | .bool b => [.kind 0, .bit b]
  | .int n => [.kind 1, .int n]
  | .long n => [.kind 2, .long n]
  | .double d => [.kind 3, .word d.bits]
  | .string s => [.kind 4, .text s]
  | .type t => [.kind 5, .text t.name]
  | .enum name => [.kind 6, .text name]
  | .array items => .kind 7 :: .length items.length :: digestItems finish items
  | .nested ⟨name, members, _⟩ =>
    [.kind 8, .text name, .length members.length, .word (digestSum finish members)]
termination_by structural v => v

def digestItems (finish : List Token → UInt64) : List Value → List Token
  | [] => []
  | v :: rest => v.digest finish ++ digestItems finish rest
termination_by structural vs => vs

def digestSum (finish : List Token → UInt64) : List (String × Value) → UInt64
  | [] => 0
  | (key, v) :: rest => finish (.text key :: v.digest finish) + digestSum finish rest
termination_by structural m => m

end

end Value

namespace Occurrence

def digest (finish : List Token → UInt64) (o : Occurrence) : List Token :=
  [.text o.name, .length o.members.length, .word (Value.digestSum finish o.members)]

end Occurrence

namespace Token

def code : Token → UInt64
  | .kind n => n.toUInt64
  | .bit b => hash b
  | .int n => n.toInt64.toUInt64
  | .long n => n.toUInt64
  | .word n => n
  | .text s => hash s
  | .length n => n.toUInt64

def mix (tokens : List Token) : UInt64 :=
  tokens.foldl (fun state token => mixHash state token.code) 7

end Token

instance : Hashable Value := ⟨fun v => Token.mix (v.digest Token.mix)⟩

instance : Hashable Occurrence := ⟨fun o => Token.mix (o.digest Token.mix)⟩

end LayeredAnnotations
