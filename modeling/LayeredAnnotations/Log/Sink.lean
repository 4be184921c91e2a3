import LayeredAnnotations.Log.Severity

namespace LayeredAnnotations

-- What becomes of a message.
inductive Emission where
  -- kept in a journal
  | note (severity : Severity) (text : String)
  | stdout (text : String)
  | stderr (text : String)
deriving DecidableEq, Repr

-- Where messages go.
inductive Sink where
  | silent
  | journal
  | console (threshold : Severity) (target : String)
deriving DecidableEq, Repr

namespace Sink

def standardTarget : String := "annotation"

-- The least severity that is let through. A silent sink claims to let errors through, though
-- nothing comes of them.
def threshold : Sink → Severity
  | .silent => .error
  | .journal => .debug
  | .console threshold _ => threshold

def letsThrough (sink : Sink) (s : Severity) : Bool := sink.threshold ≤ s

-- Only informative messages go to standard output. A message is put together when somebody gets to
-- see it.
def emit (sink : Sink) (s : Severity) (text : Thunk String) : List Emission :=
  match sink with
  | .silent => []
  | .journal => [.note s text.get]
  | .console threshold target =>
    if threshold ≤ s then
      let line := "[" ++ s.label ++ "] " ++ target ++ ": " ++ text.get ++ "\n"
      [if s = .info then .stdout line else .stderr line]
    else []

end Sink

end LayeredAnnotations
