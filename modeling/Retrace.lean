import Retrace.Alignment.Basic
import Retrace.Alignment.Parentheses
import Retrace.Anchor
import Retrace.Classes
import Retrace.Cli.Command
import Retrace.Cli.Grammar
import Retrace.Cli.Report
import Retrace.Cli.Run
import Retrace.Config.Basic
import Retrace.Config.Discovery
import Retrace.Config.Format
import Retrace.Config.Schema
import Retrace.Diagnostic
import Retrace.Document.Alignment
import Retrace.Document.Fixture
import Retrace.Document.Provenance
import Retrace.Document.Syntax
import Retrace.Fault
import Retrace.Files.Basic
import Retrace.Files.Tree
import Retrace.Fixture
import Retrace.Json.Reader
import Retrace.Json.Token
import Retrace.Json.Value
import Retrace.Json.Writer
import Retrace.Main
import Retrace.Numeral.Basic
import Retrace.Numeral.Decimal
import Retrace.Numeral.Shortest
import Retrace.Options
import Retrace.Proofs.Acceptance
import Retrace.Proofs.Accounting
import Retrace.Proofs.Anchored
import Retrace.Proofs.Boundaries
import Retrace.Proofs.Checked.Alignment
import Retrace.Proofs.Checked.Basic
import Retrace.Proofs.Checked.Classes
import Retrace.Proofs.Checked.Dispatch
import Retrace.Proofs.Checked.Expression
import Retrace.Proofs.Checked.Function
import Retrace.Proofs.Checked.Leaf
import Retrace.Proofs.Checked.Pairing
import Retrace.Proofs.Checked.Site
import Retrace.Proofs.Checked.Statement
import Retrace.Proofs.Checked.Walk
import Retrace.Proofs.Classes
import Retrace.Proofs.Counterpart
import Retrace.Proofs.Deepest
import Retrace.Proofs.Delimiters
import Retrace.Proofs.Depth
import Retrace.Proofs.DigitSeparators
import Retrace.Proofs.Document.Fields
import Retrace.Proofs.Document.Provenance
import Retrace.Proofs.Document.RoundTrip
import Retrace.Proofs.Document.Syntax
import Retrace.Proofs.Enclosing
import Retrace.Proofs.IdentityLeaves
import Retrace.Proofs.InsertionOrder
import Retrace.Proofs.Inside
import Retrace.Proofs.Layout.Basic
import Retrace.Proofs.Layout.Lists
import Retrace.Proofs.Layout.Loops
import Retrace.Proofs.Layout.Parentheses
import Retrace.Proofs.Layout.Templates
import Retrace.Proofs.Lookups
import Retrace.Proofs.Nesting
import Retrace.Proofs.Occurrences
import Retrace.Proofs.Owner
import Retrace.Proofs.Parentheses
import Retrace.Proofs.Preorder
import Retrace.Proofs.Problems
import Retrace.Proofs.RangeSet
import Retrace.Proofs.RecordedLinks
import Retrace.Proofs.Recording
import Retrace.Proofs.References
import Retrace.Proofs.Resolution
import Retrace.Proofs.Respelling
import Retrace.Proofs.Run
import Retrace.Proofs.Schema
import Retrace.Proofs.Search
import Retrace.Proofs.Separators
import Retrace.Proofs.Severity
import Retrace.Proofs.Shape.Alignment
import Retrace.Proofs.Shape.Rules
import Retrace.Proofs.Subtree
import Retrace.Proofs.Table
import Retrace.Proofs.Text
import Retrace.Proofs.Traversal
import Retrace.Proofs.Truthful.Alignment
import Retrace.Proofs.Truthful.Rules
import Retrace.Proofs.TwoRuns
import Retrace.Proofs.Unchanged.Alignment
import Retrace.Proofs.Unchanged.Rules
import Retrace.Proofs.Unsupported
import Retrace.Proofs.Wellformed
import Retrace.Proofs.Zip
import Retrace.Proofs.ZipPaths
import Retrace.Provenance.Link
import Retrace.Provenance.Recorder
import Retrace.Provenance.Table
import Retrace.Provenance.Zip
import Retrace.Range.Basic
import Retrace.Range.Depth
import Retrace.Range.Set
import Retrace.Rule.Collection
import Retrace.Rule.Dispatch
import Retrace.Rule.Expression
import Retrace.Rule.Function
import Retrace.Rule.Leaf
import Retrace.Rule.Markup
import Retrace.Rule.Pairing
import Retrace.Rule.Reshape
import Retrace.Rule.Separator
import Retrace.Rule.Site
import Retrace.Rule.Statement
import Retrace.Span
import Retrace.Syntax.Builder
import Retrace.Syntax.Field
import Retrace.Syntax.Kind
import Retrace.Syntax.Payload
import Retrace.Syntax.Tree
import Retrace.Syntax.Wellformed
import Retrace.Text.Basic
import Retrace.Text.Blank
import Retrace.Text.Hidden
import Retrace.Text.Quoted
import Retrace.Text.Search
import Retrace.Toml.Reader
import Retrace.Toml.Token
import Retrace.Toml.Writer
import Retrace.Yaml.Flow
import Retrace.Yaml.Reader
import Retrace.Yaml.Scalar
