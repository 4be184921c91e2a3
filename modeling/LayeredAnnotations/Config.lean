import LayeredAnnotations.Json.Decoder
import LayeredAnnotations.Json.Encoder
import LayeredAnnotations.Level.Expander

namespace LayeredAnnotations

-- Settings for the expansion of values.
structure Config where
  severity : Severity := .warn
  properties : Keyed String := []
  keepUnresolved : Bool := false
deriving Repr

namespace Json

-- A severity by its key, or the key as the only field of an object with nothing in it.
def severity? : Tree → Option Severity
  | .string (some key) => Severity.ofKey? key
  | .object [(some key, .null)] => Severity.ofKey? key
  | _ => none

-- The value of a field, or of its absence.
def orElse {α : Type} (fallback : α) (decode : Tree → Option α) : Option Tree → Option α
  | none => some fallback
  | some t => decode t

-- What becomes of expressions that stand for nothing.
def placeholders? (t : Tree) : Option Bool :=
  match fields? ["ignoreUnresolvable"] t with
  | some [ignore] => orElse false boolean? ignore
  | _ => none

end Json

open Json

def Severity.ofJson? (text : String) : Option Severity := (Json.read? text).bind severity?

def Severity.toJson (s : Severity) : String := (Json.string s.key).text

namespace Config

def ofTree? (t : Tree) : Option Config :=
  match fields? ["logLevel", "properties", "placeholders"] t with
  | some [severity, properties, placeholders] => do
    let severity ← orElse default severity? severity
    let properties ← orElse [] (map? text?) properties
    let keepUnresolved ← orElse false placeholders? placeholders
    some ⟨severity, properties, keepUnresolved⟩
  | _ => none

def ofJson (text : String) : Except Failure Config :=
  match (Json.read? text).bind ofTree? with
  | some config => .ok config
  | none => .error (.configuration "malformed content")

-- A file that is missing or that holds no UTF-8 cannot be read at all.
def ofFile (content : Option ByteArray) : Except Failure Config :=
  match content.bind String.fromUTF8? with
  | some text => ofJson text
  | none => .error .unreadable

def sink (c : Config) : Sink := .console c.severity Sink.standardTarget

def resolver (c : Config) : Resolver := .ofProperties c.properties

def expander (c : Config) : Expander := ⟨c.resolver, c.sink, c.keepUnresolved⟩

end Config

end LayeredAnnotations
