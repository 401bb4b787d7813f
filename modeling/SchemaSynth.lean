import SchemaSynth.Annotations
import SchemaSynth.CommandLine.Command
import SchemaSynth.CommandLine.Fault
import SchemaSynth.CommandLine.Options
import SchemaSynth.CommandLine.Outcome
import SchemaSynth.CommandLine.Run
import SchemaSynth.Config
import SchemaSynth.Decode.Mismatch
import SchemaSynth.Decode.Reader
import SchemaSynth.Fields
import SchemaSynth.Files.Basic
import SchemaSynth.Files.Glob
import SchemaSynth.Files.Path
import SchemaSynth.Files.Pattern
import SchemaSynth.Files.Tree
import SchemaSynth.Filter.Basic
import SchemaSynth.Filter.Parse
import SchemaSynth.Fixture.Basic
import SchemaSynth.Fixture.Check
import SchemaSynth.Fixture.Selection
import SchemaSynth.Fragment
import SchemaSynth.Json.Basic
import SchemaSynth.Json.Raw
import SchemaSynth.Json.Text
import SchemaSynth.Json.Token
import SchemaSynth.Main
import SchemaSynth.Number.Basic
import SchemaSynth.Number.Binary64
import SchemaSynth.Number.Rounding
import SchemaSynth.Number.Shortest
import SchemaSynth.Shape
import SchemaSynth.Table.Basic
import SchemaSynth.Table.Codec
import SchemaSynth.Text.Basic
import SchemaSynth.Text.Quoted
import SchemaSynth.Text.WordChar
import SchemaSynth.Unit.Basic
import SchemaSynth.Unit.Codec
import SchemaSynth.Unit.Expansion
import SchemaSynth.Walk
import SchemaSynth.Proofs.Except
import SchemaSynth.Proofs.Walk.Plan
import SchemaSynth.Proofs.Walk.Reference
import SchemaSynth.Proofs.Walk.Descent
import SchemaSynth.Proofs.Walk.Ending
import SchemaSynth.Proofs.Walk.Lockstep
import SchemaSynth.Proofs.Walk.InStep
import SchemaSynth.Proofs.Walk.DepthLimit
import SchemaSynth.Proofs.Walk.NamedCycle
import SchemaSynth.Proofs.Fragment.Parts
import SchemaSynth.Proofs.Fragment.Rewriting
import SchemaSynth.Proofs.Fragment.Erasure
import SchemaSynth.Proofs.Walk.Annotation
import SchemaSynth.Proofs.Walk.Blame
import SchemaSynth.Proofs.Walk.History
import SchemaSynth.Proofs.Walk.CycleCut
import SchemaSynth.Proofs.Fragment.Unwrapping
import SchemaSynth.Proofs.Walk.ObjectStyle
import SchemaSynth.Proofs.Unit.CallSite
import SchemaSynth.Proofs.Json.PartOf
import SchemaSynth.Proofs.Fragment.Rendering
import SchemaSynth.Proofs.Walk.Kept
import SchemaSynth.Proofs.Walk.Admitted
import SchemaSynth.Proofs.Walk.Provenance
import SchemaSynth.Proofs.Walk.Decoration
import SchemaSynth.Proofs.Json.Raw
import SchemaSynth.Proofs.Decode.Format
import SchemaSynth.Proofs.Decode.Record
import SchemaSynth.Proofs.Decode.Table
import SchemaSynth.Proofs.Decode.Unit
import SchemaSynth.Proofs.Decode.Interchange
import SchemaSynth.Proofs.Walk.Renumbering
import SchemaSynth.Proofs.Fragment.Items
import SchemaSynth.Proofs.Walk.ArrayStyle
import SchemaSynth.Proofs.Number.Value
import SchemaSynth.Proofs.Fragment.Legible
import SchemaSynth.Proofs.Walk.Legible
import SchemaSynth.Proofs.Walk.Memberless
import SchemaSynth.Proofs.Walk.Members
import SchemaSynth.Proofs.Walk.OptionalSlot
import SchemaSynth.Proofs.Walk.Intersection
import SchemaSynth.Proofs.Walk.Union
import SchemaSynth.Proofs.Fragment.Levels
import SchemaSynth.Proofs.Walk.Levels
import SchemaSynth.Proofs.Walk.Ring
import SchemaSynth.Proofs.CommandLine.Outputs
import SchemaSynth.Proofs.Fragment.Edit
import SchemaSynth.Proofs.Text.Blank
import SchemaSynth.Proofs.Text.Pattern
import SchemaSynth.Proofs.Tag.Entry
import SchemaSynth.Proofs.Walk.Unrecognized
import SchemaSynth.Proofs.Fragment.Forbidden
import SchemaSynth.Proofs.Walk.Forbidden
import SchemaSynth.Proofs.Walk.Enum
import SchemaSynth.Proofs.Number.Nearest
import SchemaSynth.Proofs.Number.Whole
import SchemaSynth.Proofs.Tag.Coercion
import SchemaSynth.Proofs.Walk.WholeNumber
