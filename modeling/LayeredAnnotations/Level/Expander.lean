import LayeredAnnotations.Level.Answers
import LayeredAnnotations.Placeholder.Expansion

namespace LayeredAnnotations

-- What it takes to expand the values of a level before they are answered.
structure Expander where
  resolver : Resolver
  sink : Sink := .silent
  -- whether expressions that stand for nothing stay as text, instead of taking the value with them
  keepUnresolved : Bool := false

namespace Expander

private def place (name member : String) : String := "@" ++ name ++ "." ++ member

def note (x : Expander) (text : Thunk String) : Logged Unit := .tell (x.sink.emit .debug text)

-- Expansion of a raw value. Without expressions in the level there is nothing to expand.
def expand (x : Expander) (inner : Answers) (name member : String) (raw : Value) :
    Logged (Option Value) :=
  if inner.ask .hasExpressions then
    match raw.expand x.resolver x.keepUnresolved with
    | .error failure => do
      x.note (failure.message ++ " in " ++ place name member)
      pure none
    | .ok expanded => do
      if x.keepUnresolved && expanded.hasPlaceholder then
        x.note ("Unresolvable placeholder in " ++ place name member ++ ", kept as text: "
          ++ expanded.text)
      pure (some expanded)
  else pure (some raw)

-- The value that callers get to see, whatever they accept.
def value (x : Expander) (inner : Answers) (mapper : Option Mapper) (name member : String) :
    Logged (Option Value) := do
  match ← inner.value name member with
  | none => pure none
  | some raw =>
    let expanded? ← x.expand inner name member raw
    pure (expanded?.map (mapper.getD id))

-- A value that the caller does not accept is noted.
def scalar (x : Expander) (inner : Answers) (mapper : Option Mapper) (name member : String)
    (accept : Value → Bool) : Logged (Option Value) := do
  match ← x.value inner mapper name member with
  | none => pure none
  | some v =>
    if accept v then pure (some v)
    else
      x.note (place name member ++ " = " ++ v.text
        ++ " cannot be converted to the requested type")
      pure none

def array (x : Expander) (inner : Answers) (mapper : Option Mapper) (name member : String)
    (accept : Value → Bool) : Logged (List Value) := do
  let v? ← x.value inner mapper name member
  pure ((v?.map (·.elements.filter accept)).getD [])

-- Only lookups are expanded. All else is as the level inside has it.
def answers (x : Expander) (inner : Answers) : Answers where
  ask {α} (q : Question α) := match q with
    | .takesMapper => true
    | .isRepeatable name => (inner.ask (.container? name)).isSome
    | .scalar mapper name member accept => x.scalar inner mapper name member accept
    | .array mapper name member accept => x.array inner mapper name member accept
    | q => inner.ask q

end Expander

end LayeredAnnotations
