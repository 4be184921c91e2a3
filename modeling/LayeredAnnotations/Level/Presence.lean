namespace LayeredAnnotations

-- How an annotation comes to be on an element; several ways at once are possible.
structure Presence where
  -- written on the element itself
  declared : Bool := false
  inherited : Bool := false
  -- an annotation of a declared annotation
  declaredMeta : Bool := false
  -- an annotation of an inherited annotation
  inheritedMeta : Bool := false
deriving DecidableEq, Repr

namespace Presence

def nowhere : Presence := {}

def anywhere : Presence := ⟨true, true, true, true⟩

-- On the element in its own right.
def proper : Presence := { declared := true, inherited := true }

def onlyDeclared : Presence := { declared := true }

-- Declared, or an annotation of what is declared.
def throughDeclared : Presence := { declared := true, declaredMeta := true }

def union (p q : Presence) : Presence :=
  ⟨p.declared || q.declared, p.inherited || q.inherited,
    p.declaredMeta || q.declaredMeta, p.inheritedMeta || q.inheritedMeta⟩

def inter (p q : Presence) : Presence :=
  ⟨p.declared && q.declared, p.inherited && q.inherited,
    p.declaredMeta && q.declaredMeta, p.inheritedMeta && q.inheritedMeta⟩

def intersects (p q : Presence) : Bool := p.inter q != nowhere

def contains (p q : Presence) : Bool := p.inter q == q

-- One bit for each way, from the lowest.
def toBits (p : Presence) : Nat :=
  p.declared.toNat + 2 * p.inherited.toNat + 4 * p.declaredMeta.toNat + 8 * p.inheritedMeta.toNat

-- Higher bits are dropped.
def ofBits (n : Nat) : Presence := ⟨n.testBit 0, n.testBit 1, n.testBit 2, n.testBit 3⟩

-- Higher bits are refused.
def ofBits? (n : Nat) : Option Presence := if n < 16 then some (ofBits n) else none

end Presence

-- Where an annotation comes from.
inductive Origin where
  | declared
  | inherited
deriving DecidableEq, Repr

namespace Origin

def presence : Origin → Presence
  | .declared => { declared := true }
  | .inherited => { inherited := true }

-- The presence of annotations of an annotation.
def metaPresence : Origin → Presence
  | .declared => { declaredMeta := true }
  | .inherited => { inheritedMeta := true }

end Origin

end LayeredAnnotations
