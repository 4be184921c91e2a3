import LayeredAnnotations.Config
import LayeredAnnotations.Level.Basic
import LayeredAnnotations.Value.Digest
import LayeredAnnotations.Proofs.Keyed
import LayeredAnnotations.Proofs.Level.Merge
import LayeredAnnotations.Proofs.WellFormed
import LayeredAnnotations.Proofs.Record.Scan
import LayeredAnnotations.Proofs.Record.WellFormed
import LayeredAnnotations.Proofs.Level.Built
import LayeredAnnotations.Proofs.Level.Lookup
import LayeredAnnotations.Proofs.Level.Precedence
import LayeredAnnotations.Proofs.Level.Wrapping
import LayeredAnnotations.Proofs.Record.Declared
import LayeredAnnotations.Proofs.Record.Inheritance
import LayeredAnnotations.Proofs.Value.Equality
import LayeredAnnotations.Proofs.KeepFirst
import LayeredAnnotations.Proofs.Level.Aggregation
import LayeredAnnotations.Proofs.Level.Flattening
import LayeredAnnotations.Proofs.Level.Defaults
import LayeredAnnotations.Proofs.Level.Plain
import LayeredAnnotations.Proofs.Value.Reach
import LayeredAnnotations.Proofs.Record.Consistency
import LayeredAnnotations.Proofs.Record.Grouping
import LayeredAnnotations.Proofs.Level.Coherence
import LayeredAnnotations.Proofs.Level.Views
import LayeredAnnotations.Proofs.Value.Likeness
import LayeredAnnotations.Proofs.Level.ExpandedViews
import LayeredAnnotations.Proofs.Placeholder.Cutting
import LayeredAnnotations.Proofs.Placeholder.Resolution
import LayeredAnnotations.Proofs.Placeholder.Reopening
import LayeredAnnotations.Proofs.Value.Texts
import LayeredAnnotations.Proofs.Level.Leniency
import LayeredAnnotations.Proofs.Level.Leftovers
import LayeredAnnotations.Proofs.Record.Contents
import LayeredAnnotations.Proofs.Record.Naming
import LayeredAnnotations.Proofs.Record.Repetition
import LayeredAnnotations.Proofs.Level.FoundMembers
import LayeredAnnotations.Proofs.Level.DeclaredAmongAll
import LayeredAnnotations.Proofs.Record.DeclaredPresence
import LayeredAnnotations.Proofs.Record.Recorded
import LayeredAnnotations.Proofs.Text.Trimming
import LayeredAnnotations.Proofs.Text.Word
import LayeredAnnotations.Proofs.TypeName
import LayeredAnnotations.Proofs.Numeral
import LayeredAnnotations.Proofs.Binary64.ExactValue
import LayeredAnnotations.Proofs.Value.Integers
import LayeredAnnotations.Proofs.Level.Overrides
import LayeredAnnotations.Proofs.Level.Siblings
import LayeredAnnotations.Proofs.Level.Logging
import LayeredAnnotations.Proofs.Json.Reading
import LayeredAnnotations.Proofs.Json.Stored
