import AccessControl.Config.File
import AccessControl.Config.Load
import AccessControl.Config.Location
import AccessControl.Proofs.Expression.Precedence
import AccessControl.Proofs.Policy.Failure
import AccessControl.Registry.Stock
import AccessControl.Value.Reader
import AccessControl.Proofs.Rule.Language
import AccessControl.Proofs.Rule.Soundness
import AccessControl.Proofs.Rule.Completeness
import AccessControl.Proofs.Rule.Acceptance
import AccessControl.Proofs.Rule.Binding
import AccessControl.Proofs.Registry.Session
import AccessControl.Proofs.Config.Validation
import AccessControl.Proofs.Double.Rounding
import AccessControl.Proofs.Double.Shortest
import AccessControl.Proofs.Rule.Numerals
import AccessControl.Proofs.Rule.Spelling
import AccessControl.Proofs.Rule.NormalText
import AccessControl.Proofs.Rule.Rereading
import AccessControl.Proofs.Rule.Height
import AccessControl.Proofs.Policy.Merging
import AccessControl.Proofs.Policy.Bracketing
import AccessControl.Proofs.Policy.Chaining
import AccessControl.Proofs.Registry.Naming
import AccessControl.Proofs.Declaration.Shape
import AccessControl.Proofs.Rule.Complement
import AccessControl.Proofs.Policy.Duality
import AccessControl.Proofs.Double.Monotone
import AccessControl.Proofs.Number.Order
import AccessControl.Proofs.Rule.Thresholds
import AccessControl.Proofs.Policy.Outcome
import AccessControl.Proofs.Policy.Reporting
import AccessControl.Proofs.Declaration.Writing
import AccessControl.Proofs.Config.Overlay
import AccessControl.Proofs.Config.Override
import AccessControl.Proofs.Number.Transitivity
import AccessControl.Proofs.Rule.Relations
import AccessControl.Proofs.Rule.Between
import AccessControl.Proofs.Rule.Coherence
import AccessControl.Proofs.Rule.NumericOrder
import AccessControl.Proofs.Policy.Repetition
import AccessControl.Proofs.Rule.Layout
import AccessControl.Proofs.Rule.Quotation
import AccessControl.Proofs.Rule.Paths
import AccessControl.Proofs.Number.Exactness
import AccessControl.Proofs.Rule.Integers
import AccessControl.Proofs.Rule.Spacing
import AccessControl.Proofs.Rule.Composition
import AccessControl.Proofs.Policy.Locality
import AccessControl.Proofs.Rule.Refusals
import AccessControl.Proofs.Expression.Refusals
import AccessControl.Proofs.Rule.Cursor
import AccessControl.Proofs.Expression.Cursor
import AccessControl.Proofs.Text.Refusals
import AccessControl.Proofs.Expression.Fullness
import AccessControl.Proofs.Policy.References
import AccessControl.Proofs.Rule.Counting
