namespace LayeredAnnotations

-- Why typed access or configuration can fail. Queries never do: what they cannot answer is absent.
inductive Failure where
  | unresolvable (expression : String)
  | missing (name member : String)
  | unconvertible (name member expected : String)
  | configuration (reason : String)
  | unreadable
  | unknownLevel (text : String)
deriving DecidableEq, Repr

namespace Failure

def message : Failure → String
  | .unresolvable expression => "Unresolvable placeholder: " ++ expression
  | .missing name member =>
    "Annotation @" ++ name ++ " has no value or default for member '" ++ member ++ "'"
  | .unconvertible name member expected =>
    "Member '" ++ member ++ "' of @" ++ name ++ " cannot be converted to " ++ expected
  | .configuration reason => "Invalid configuration: " ++ reason
  | .unreadable => "Unreadable configuration file"
  | .unknownLevel text => "unknown log level '" ++ text ++ "'"

end Failure

end LayeredAnnotations
