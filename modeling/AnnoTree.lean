import AnnoTree.Annot.Building
import AnnoTree.Annot.Check
import AnnoTree.Annot.Defaults
import AnnoTree.Annot.Identifier
import AnnoTree.Annot.Loading
import AnnoTree.CommandLine.Arguments
import AnnoTree.CommandLine.Run
import AnnoTree.Double.Basic
import AnnoTree.Double.Shortest
import AnnoTree.Double.Text
import AnnoTree.Entries
import AnnoTree.Failure
import AnnoTree.Json.Basic
import AnnoTree.Json.Reader
import AnnoTree.Json.Writer
import AnnoTree.Main
import AnnoTree.Nesting
import AnnoTree.Proofs.Double.Range
import AnnoTree.Proofs.Double.Rounding
import AnnoTree.Proofs.Double.Shortest
import AnnoTree.Proofs.Entries
import AnnoTree.Proofs.Identifier.Canonical
import AnnoTree.Proofs.Identifier.Content
import AnnoTree.Proofs.Identifier.Display
import AnnoTree.Proofs.Identifier.Supply
import AnnoTree.Proofs.Json.Numbers
import AnnoTree.Proofs.Json.RoundTrip
import AnnoTree.Proofs.Json.Strings
import AnnoTree.Proofs.Loading.Acceptance
import AnnoTree.Proofs.Loading.Layout
import AnnoTree.Proofs.Loading.Leaves
import AnnoTree.Proofs.Loading.RoundTrip
import AnnoTree.Proofs.Nesting.Bound
import AnnoTree.Proofs.Nesting.Tree
import AnnoTree.Proofs.Nesting.Walks
import AnnoTree.Proofs.Order.Building
import AnnoTree.Proofs.Order.Comparators
import AnnoTree.Proofs.Order.Laws
import AnnoTree.Proofs.Order.Sorted
import AnnoTree.Proofs.Order.Tuples
import AnnoTree.Raw.Basic
import AnnoTree.Raw.Comparison
import AnnoTree.Raw.Equality
import AnnoTree.Raw.Fields
import AnnoTree.Raw.Shown
import AnnoTree.Scenario
import AnnoTree.Settings.Basic
import AnnoTree.Settings.Fields
import AnnoTree.Settings.Loading
import AnnoTree.Sha256
import AnnoTree.Signature.Basic
import AnnoTree.Signature.Descriptor
import AnnoTree.Sorting
import AnnoTree.Storage.Appending
import AnnoTree.Storage.FileTree
import AnnoTree.Storage.Path
import AnnoTree.Storage.Record
import AnnoTree.Storage.Row
import AnnoTree.Text.Blank
import AnnoTree.Text.Digit
import AnnoTree.Text.Lines
import AnnoTree.Text.Numeral
import AnnoTree.Text.Printable
import AnnoTree.Text.Quoted
import AnnoTree.Text.Split
import AnnoTree.Text.Utf8
import AnnoTree.Toml.Moment
import AnnoTree.Toml.Reader
import AnnoTree.Toml.Table
import AnnoTree.Types.Entity
import AnnoTree.Types.Lookup
import AnnoTree.Types.Modules
import AnnoTree.Types.Registry
import AnnoTree.Value.Basic
import AnnoTree.Value.Encoding
import AnnoTree.Value.Key
import AnnoTree.Value.Payload
import AnnoTree.Value.Reference
import AnnoTree.Value.Rendering
import AnnoTree.Value.Scalar
import AnnoTree.Proofs.Defaults.Layers
import AnnoTree.Proofs.Defaults.Precedence
import AnnoTree.Proofs.Storage.Appending
import AnnoTree.Proofs.Storage.References
import AnnoTree.Proofs.Storage.RoundTrip
import AnnoTree.Proofs.Storage.Trees
import AnnoTree.Proofs.Signature.Grammar
import AnnoTree.Proofs.Signature.Reading
import AnnoTree.Proofs.Types.Modules
import AnnoTree.Proofs.Types.ClassLiterals
import AnnoTree.Proofs.CommandLine.Reports
import AnnoTree.Proofs.Storage.Deliveries
import AnnoTree.Proofs.CommandLine.Outcomes
import AnnoTree.Proofs.Defaults.Merged
import AnnoTree.Proofs.Equality.Congruence
import AnnoTree.Proofs.Equality.Texts
import AnnoTree.Proofs.Encoding.Offences
import AnnoTree.Proofs.Encoding.Unwrapping
import AnnoTree.Proofs.Checks.Selection
import AnnoTree.Proofs.Json.Continuation
import AnnoTree.Proofs.Storage.OpenLine
import AnnoTree.Proofs.Storage.LastLine
import AnnoTree.Proofs.Storage.FailingRuns
import AnnoTree.Proofs.Storage.LineNumbers
import AnnoTree.Proofs.Storage.RejectedRows
import AnnoTree.Proofs.Rendering.LineFeeds
import AnnoTree.Proofs.CommandLine.RenderedLines
import AnnoTree.Proofs.Types.Registries
import AnnoTree.Proofs.Types.DottedNames
import AnnoTree.Proofs.Types.LoadedModules
import AnnoTree.Proofs.Types.LongestModule
import AnnoTree.Proofs.Types.Agreement
import AnnoTree.Proofs.Signature.Faults
import AnnoTree.Proofs.Scenario.KeptAnnotations
import AnnoTree.Proofs.Settings.Sources
