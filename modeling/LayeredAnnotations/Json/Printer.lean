import LayeredAnnotations.Json.Tree

namespace LayeredAnnotations

namespace Json

-- Quotes, backslashes and control characters cannot stand for themselves.
def escape (c : Char) : List Char :=
  if c = '"' then ['\\', '"']
  else if c = '\\' then ['\\', '\\']
  else if c = '\x08' then ['\\', 'b']
  else if c = '\x0c' then ['\\', 'f']
  else if c = '\n' then ['\\', 'n']
  else if c = '\r' then ['\\', 'r']
  else if c = '\t' then ['\\', 't']
  else if c.toNat < 0x20 then
    ['\\', 'u', '0', '0', Nat.digitChar (c.toNat / 16), Nat.digitChar (c.toNat % 16)]
  else [c]

-- In front of what comes next.
def quotedBefore (s : String) (next : List Char) : List Char :=
  '"' :: (s.toList.flatMap escape ++ '"' :: next)

namespace Tree

mutual

-- Without any blanks. What comes next is handed down rather than put behind a text that is done, so
-- that no character is copied once for each level around it.
def printBefore : Tree → List Char → List Char
  | .null, next => "null".toList ++ next
  | .bool b, next => (if b then "true" else "false").toList ++ next
  | .number x, next => x.text ++ next
  | .string s, next => quotedBefore (s.getD "") next
  | .array items, next => '[' :: printItems items (']' :: next)
  | .object entries, next => '\x7b' :: printEntries entries ('\x7d' :: next)
termination_by structural t => t

def printItems : List Tree → List Char → List Char
  | [], next => next
  | [t], next => t.printBefore next
  | t :: u :: rest, next => t.printBefore (',' :: printItems (u :: rest) next)
termination_by structural ts => ts

def printEntries : List (Option String × Tree) → List Char → List Char
  | [], next => next
  | [(key, t)], next => quotedBefore (key.getD "") (':' :: t.printBefore next)
  | (key, t) :: e :: rest, next =>
    quotedBefore (key.getD "") (':' :: t.printBefore (',' :: printEntries (e :: rest) next))
termination_by structural ts => ts

end

def print (t : Tree) : List Char := t.printBefore []

mutual

-- The text of a tree does not depend on what comes next.
theorem printBefore_eq (t : Tree) (next : List Char) : t.printBefore next = t.print ++ next := by
  cases t with
  | null => rfl
  | bool b => simp [print, printBefore]
  | number x => simp [print, printBefore]
  | string s => simp [print, printBefore, quotedBefore]
  | array items =>
    simp only [print, printBefore]
    rw [printItems_eq items (']' :: next), printItems_eq items [']']]
    simp
  | object entries =>
    simp only [print, printBefore]
    rw [printEntries_eq entries ('\x7d' :: next), printEntries_eq entries ['\x7d']]
    simp
termination_by structural t

theorem printItems_eq (items : List Tree) (next : List Char) :
    printItems items next = printItems items [] ++ next := by
  match items with
  | [] => rfl
  | [t] => exact printBefore_eq t next
  | t :: u :: rest =>
    simp only [printItems]
    rw [printBefore_eq t (',' :: printItems (u :: rest) next), printItems_eq (u :: rest) next,
      printBefore_eq t (',' :: printItems (u :: rest) [])]
    simp
termination_by structural items

theorem printEntries_eq (entries : List (Option String × Tree)) (next : List Char) :
    printEntries entries next = printEntries entries [] ++ next := by
  match entries with
  | [] => rfl
  | [(key, t)] =>
    simp only [printEntries, quotedBefore]
    rw [printBefore_eq t next, printBefore_eq t []]
    simp
  | (key, t) :: e :: rest =>
    simp only [printEntries, quotedBefore]
    rw [printBefore_eq t (',' :: printEntries (e :: rest) next), printEntries_eq (e :: rest) next,
      printBefore_eq t (',' :: printEntries (e :: rest) [])]
    simp
termination_by structural entries

end

def text (t : Tree) : String := String.ofList t.print

end Tree

end Json

end LayeredAnnotations
