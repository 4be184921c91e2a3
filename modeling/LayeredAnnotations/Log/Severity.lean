import LayeredAnnotations.Failure
import LayeredAnnotations.Text.Blank

namespace LayeredAnnotations

inductive Severity where
  | debug
  | info
  | warn
  | error
deriving DecidableEq, Repr

namespace Severity

def rank : Severity → Nat
  | .debug => 0
  | .info => 1
  | .warn => 2
  | .error => 3

instance : LE Severity := ⟨fun a b => a.rank ≤ b.rank⟩

instance : LT Severity := ⟨fun a b => a.rank < b.rank⟩

instance (a b : Severity) : Decidable (a ≤ b) := inferInstanceAs (Decidable (a.rank ≤ b.rank))

instance (a b : Severity) : Decidable (a < b) := inferInstanceAs (Decidable (a.rank < b.rank))

instance : Inhabited Severity := ⟨.warn⟩

def label : Severity → String
  | .debug => "DEBUG"
  | .info => "INFO"
  | .warn => "WARN"
  | .error => "ERROR"

-- The name in configuration files.
def key : Severity → String
  | .debug => "debug"
  | .info => "info"
  | .warn => "warn"
  | .error => "error"

def all : List Severity := [.debug, .info, .warn, .error]

def ofKey? (key : String) : Option Severity := all.find? fun s => s.key == key

-- White space around the name and the case of its letters do not matter.
def parse (text : String) : Except Failure Severity :=
  match Text.lowercase (Text.trimmed text) with
  | "debug" => .ok .debug
  | "info" => .ok .info
  | "warn" | "warning" => .ok .warn
  | "error" => .ok .error
  | other => .error (.unknownLevel other)

end Severity

end LayeredAnnotations
