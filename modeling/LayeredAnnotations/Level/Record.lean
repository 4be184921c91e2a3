import LayeredAnnotations.Level.Presence
import LayeredAnnotations.Level.Question
import LayeredAnnotations.Placeholder.Expansion
import LayeredAnnotations.Value.Reading

namespace LayeredAnnotations

-- What is known of one annotation on an element.
structure Entry where
  members : Members := []
  presence : Presence := .nowhere

-- The annotations found on one element.
structure Record where
  entries : Keyed Entry := []
  -- by annotation, the annotations that carry it
  carriers : Keyed (List String) := []
  declaredCarriers : Keyed (List String) := []
  -- by repeatable annotation, the container that groups its occurrences
  containers : Keyed String := []
  defaults : Keyed Members := []
  hasExpressions : Bool := false

-- One finding of whoever scans the element.
inductive Finding where
  | present (origin : Origin) (o : Occurrence)
  -- an annotation of the annotation `carrier`
  | carried (origin : Origin) (carrier : String) (o : Occurrence)
  -- one of several occurrences, grouped in `container`
  | repeated (origin : Origin) (container : String) (o : Occurrence)
  | defaults (name : String) (values : Members)

namespace Record

def empty : Record := {}

-- Puts `name` into the list of `key` unless it is there already.
def noteUnder (key name : String) (lists : Keyed (List String)) : Keyed (List String) :=
  Keyed.update key [] (fun names => if names.contains name then names else names ++ [name]) lists

-- Members that are there already keep their values.
def add (r : Record) (o : Occurrence) (presence : Presence) : Record :=
  { r with entries := Keyed.update o.name {} (fun entry =>
      ⟨Keyed.fill entry.members o.members, entry.presence.union presence⟩) r.entries }

-- A single value in the way of the grouped occurrences becomes the first of them.
def group (o : Occurrence) : Value → Value
  | .array items => .array (items ++ [.nested o])
  | v => .array [v, .nested o]

def addTo (r : Record) (container : String) (o : Occurrence) (presence : Presence) : Record :=
  { r with
    containers := r.containers.put o.name container
    entries := Keyed.update container {} (fun entry =>
      ⟨Keyed.update Occurrence.soleMember (.array []) (group o) entry.members,
        entry.presence.union presence⟩) r.entries }

def noteCarrier (r : Record) (origin : Origin) (name carrier : String) : Record :=
  { r with
    carriers := noteUnder name carrier r.carriers
    declaredCarriers := match origin with
      | .declared => noteUnder name carrier r.declaredCarriers
      | .inherited => r.declaredCarriers }

def step (r : Record) : Finding → Record
  | .present origin o => r.add o origin.presence
  | .carried origin carrier o => (r.noteCarrier origin o.name carrier).add o origin.metaPresence
  | .repeated origin container o => r.addTo container o origin.presence
  | .defaults name values => { r with defaults := r.defaults.put name values }

def membersHavePlaceholder (m : Members) : Bool := m.any fun (_, v) => v.hasPlaceholder

-- Finds out whether there is anything to expand.
def sealed (r : Record) : Record :=
  { r with hasExpressions :=
      (r.entries.any fun (_, entry) => membersHavePlaceholder entry.members)
        || r.defaults.any fun (_, values) => membersHavePlaceholder values }

def ofFindings (findings : List Finding) : Record := (findings.foldl step empty).sealed

-- The entry of an annotation that is present in one of the ways of `mask`.
def entryIn? (r : Record) (name : String) (mask : Presence) : Option Entry :=
  (r.entries.lookup name).filter fun entry => entry.presence.intersects mask

def defaultsOf (r : Record) (name : String) : Members := (r.defaults.lookup name).getD []

def occurrence (r : Record) (name : String) (entry : Entry) : Occurrence :=
  ⟨name, entry.members, r.defaultsOf name⟩

-- The occurrences in the container of a repeatable annotation, if it is there at all.
def grouped? (r : Record) (name : String) (mask : Presence) : Option (List Occurrence) := do
  let container ← r.containers.lookup name
  let entry ← r.entryIn? container mask
  let elements := ((entry.members.lookup Occurrence.soleMember).map Value.elements).getD []
  some ((elements.filterMap Value.scalarNested?).map (·.withDefaults (r.defaultsOf name)))

-- An annotation with an entry of its own is found there, and otherwise in its container.
def findIn? (r : Record) (name : String) (mask : Presence) (own : Option Entry) :
    Option Occurrence :=
  match own with
  | some entry => some (r.occurrence name entry)
  | none => (r.grouped? name mask).bind List.head?

-- A container counts before an entry of the annotation itself.
def occurrencesIn (r : Record) (name : String) (mask : Presence) : List Occurrence :=
  match r.grouped? name mask with
  | some os => os
  | none => ((r.entryIn? name mask).map (r.occurrence name)).toList

def namesIn (r : Record) (mask : Presence) : List String :=
  (r.entries.filter fun (_, entry) => entry.presence.intersects mask).map (·.1)

-- Whether an annotation, or the container that groups it, is present in one of the ways of `mask`.
def hasIn (r : Record) (name : String) (mask : Presence) : Bool :=
  (r.entryIn? name mask).isSome
    || match r.containers.lookup name with
      | some container => (r.entryIn? container mask).isSome
      | none => false

-- An annotation stands in for itself where no other is known to carry it.
def carriersOr (known : Keyed (List String)) (name : String) (present : Bool) : List String :=
  match known.lookup name with
  | some names => names
  | none => if present then [name] else []

-- A default counts only for an annotation that has an entry.
def raw? (r : Record) (name member : String) : Option Value := do
  let entry ← r.entries.lookup name
  (entry.members.lookup member).or ((r.defaultsOf name).lookup member)

def find? (r : Record) (name : String) : Option Occurrence :=
  r.findIn? name .anywhere (r.entries.lookup name)

def findDeclared? (r : Record) (name : String) : Option Occurrence :=
  r.findIn? name .throughDeclared (r.entryIn? name .throughDeclared)

-- Lookups take nobody's mapper and log nothing.
def answers (r : Record) : Answers where
  ask {α} (q : Question α) := match q with
    | .isEmpty => r.entries.isEmpty
    | .hasExpressions => r.hasExpressions
    | .takesMapper => false
    | .has name => r.hasIn name .proper
    | .hasDeclared name => r.hasIn name .onlyDeclared
    | .knows name => r.entries.has name || r.hasIn name .proper
    | .knowsDeclared name => (r.entryIn? name .throughDeclared).isSome || r.hasIn name .onlyDeclared
    | .names => r.namesIn .proper
    | .declaredNames => r.namesIn .onlyDeclared
    | .carriers name => carriersOr r.carriers name (r.hasIn name .proper)
    | .declaredCarriers name => carriersOr r.declaredCarriers name (r.hasIn name .onlyDeclared)
    | .find? name => r.find? name
    | .findDeclared? name => r.findDeclared? name
    | .occurrences name => r.occurrencesIn name .anywhere
    | .declaredOccurrences name => r.occurrencesIn name .throughDeclared
    | .defaults name => r.defaultsOf name
    | .container? name => r.containers.lookup name
    | .isRepeatable name => (r.containers.lookup name).isSome
    | .scalar _ name member accept => pure ((r.raw? name member).filter accept)
    | .array _ name member accept =>
      pure (((r.raw? name member).map (·.elements.filter accept)).getD [])
    | .explicit name => Occurrence.membersOf (r.find? name)
    | .isExplicit name member => match r.entries.lookup name with
      | some entry => entry.members.has member
      | none => false
    | .default? name member => (r.defaultsOf name).lookup member
    | .all => (r.namesIn .proper).filterMap r.find?
    | .allDeclared => (r.namesIn .onlyDeclared).filterMap r.findDeclared?

end Record

end LayeredAnnotations
