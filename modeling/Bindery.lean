import Bindery.Client.Call
import Bindery.Json.Reader
import Bindery.Json.Writer
import Bindery.Label.Documentation
import Bindery.Label.Free
import Bindery.Label.Temporal
import Bindery.Main
import Bindery.Number.Binary64
import Bindery.Number.Calendar
import Bindery.Query.Input
import Bindery.Query.Name
import Bindery.Query.Store
import Bindery.Schema.Filter
import Bindery.Proofs.Document.Assembled
import Bindery.Proofs.Selection.Everything
import Bindery.Proofs.Selection.Nearest
import Bindery.Proofs.Selection.Operations
import Bindery.Proofs.Selection.Siblings
import Bindery.Proofs.Catalog.FreeName
import Bindery.Proofs.Catalog.ClassNames
import Bindery.Proofs.Catalog.UnionFields
import Bindery.Proofs.Client.Hierarchy
import Bindery.Proofs.Client.Unions
import Bindery.Proofs.Client.Sendable
import Bindery.Proofs.Output.Classes
import Bindery.Proofs.Output.Course
import Bindery.Proofs.Output.Files
import Bindery.Proofs.Output.Reordered
import Bindery.Proofs.Output.Written
import Bindery.Proofs.Client.Metadata
import Bindery.Proofs.Schema.Filter
import Bindery.Proofs.Output.Registry
import Bindery.Proofs.Output.Mentions
import Bindery.Proofs.Output.Filtered
import Bindery.Proofs.Catalog.GivenNames
import Bindery.Proofs.Output.Directives
import Bindery.Proofs.Output.Modules
import Bindery.Proofs.Output.Complete
import Bindery.Proofs.Archive.Extraction
import Bindery.Proofs.Label.Documentation
import Bindery.Proofs.Catalog.Referenced
import Bindery.Proofs.Catalog.Nullability
import Bindery.Proofs.Catalog.KeptFields
import Bindery.Proofs.Schema.Introspection
import Bindery.Proofs.Schema.Reference
import Bindery.Proofs.Schema.Wrappers
import Bindery.Proofs.Literal.Keys
import Bindery.Proofs.Document.Indentation
import Bindery.Proofs.Selection.ResponseKeys
import Bindery.Proofs.Number.Worth
import Bindery.Proofs.Client.Signatures
import Bindery.Proofs.Client.Methods
import Bindery.Proofs.Scalar.Custom
import Bindery.Proofs.Parameters
import Bindery.Proofs.Selection.Rendered
import Bindery.Proofs.History
import Bindery.Proofs.Label.Unique
import Bindery.Proofs.Label.Kept
import Bindery.Proofs.Input.Changes
