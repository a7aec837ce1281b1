import DbSchema.Calendar
import DbSchema.Cli.Arguments
import DbSchema.Cli.Invocation
import DbSchema.Cli.Run
import DbSchema.Document.Decode
import DbSchema.Document.Encode
import DbSchema.Document.Files
import DbSchema.Document.Text
import DbSchema.Error.Category
import DbSchema.Error.Fault
import DbSchema.Error.Limits
import DbSchema.Error.Model
import DbSchema.Folder
import DbSchema.Kind
import DbSchema.Main
import DbSchema.Model.Attributes
import DbSchema.Model.Basic
import DbSchema.Model.Children
import DbSchema.Model.Contents
import DbSchema.Model.Display
import DbSchema.Model.Lifetime
import DbSchema.Model.Slots
import DbSchema.Model.Spec
import DbSchema.Model.Table
import DbSchema.Model.Validity
import DbSchema.Names
import DbSchema.Number.Binary64
import DbSchema.Number.Integer
import DbSchema.Number.Shortest
import DbSchema.Proofs.Cells
import DbSchema.Proofs.Cli.PullByName
import DbSchema.Proofs.Cli.PullThenCheck
import DbSchema.Proofs.Document.Accepted
import DbSchema.Proofs.Document.Checked
import DbSchema.Proofs.Document.Children
import DbSchema.Proofs.Document.Definitions
import DbSchema.Proofs.Document.Directory
import DbSchema.Proofs.Document.Faults
import DbSchema.Proofs.Document.Files
import DbSchema.Proofs.Document.Marks
import DbSchema.Proofs.Document.Nodes
import DbSchema.Proofs.Document.NormalForm
import DbSchema.Proofs.Document.Refusals
import DbSchema.Proofs.Document.Reread
import DbSchema.Proofs.Document.RoundTrip
import DbSchema.Proofs.Document.Shape
import DbSchema.Proofs.Document.Tables
import DbSchema.Proofs.Document.Written
import DbSchema.Proofs.Doubles
import DbSchema.Proofs.Folder
import DbSchema.Proofs.Folder.Inside
import DbSchema.Proofs.Json
import DbSchema.Proofs.KeyEquality
import DbSchema.Proofs.Keys
import DbSchema.Proofs.Model.Adding
import DbSchema.Proofs.Model.Aside
import DbSchema.Proofs.Model.Atomicity
import DbSchema.Proofs.Model.Breaches
import DbSchema.Proofs.Model.Building
import DbSchema.Proofs.Model.Changes
import DbSchema.Proofs.Model.Coherence
import DbSchema.Proofs.Model.Consistency
import DbSchema.Proofs.Model.Drafting
import DbSchema.Proofs.Model.Faults
import DbSchema.Proofs.Model.FieldOrder
import DbSchema.Proofs.Model.Forms
import DbSchema.Proofs.Model.Growing
import DbSchema.Proofs.Model.History
import DbSchema.Proofs.Model.Lifetime
import DbSchema.Proofs.Model.Naming
import DbSchema.Proofs.Model.NewChildren
import DbSchema.Proofs.Model.Numbering
import DbSchema.Proofs.Model.Obstacles
import DbSchema.Proofs.Model.OnceListed
import DbSchema.Proofs.Model.Outline
import DbSchema.Proofs.Model.Ownership
import DbSchema.Proofs.Model.PrimaryKeys
import DbSchema.Proofs.Model.Registries
import DbSchema.Proofs.Model.Registry
import DbSchema.Proofs.Model.Roster
import DbSchema.Proofs.Model.Sound
import DbSchema.Proofs.Model.Tidy
import DbSchema.Proofs.Model.Untouched
import DbSchema.Proofs.Model.Verdicts
import DbSchema.Proofs.NameShapes
import DbSchema.Proofs.Names
import DbSchema.Proofs.Numbers
import DbSchema.Proofs.Outcome
import DbSchema.Proofs.Percent
import DbSchema.Proofs.Settings.Priority
import DbSchema.Proofs.Settings.Sections
import DbSchema.Proofs.Sizes
import DbSchema.Proofs.Source.Asking
import DbSchema.Proofs.Source.Autoincrement
import DbSchema.Proofs.Source.CatalogTables
import DbSchema.Proofs.Source.ClusterForms
import DbSchema.Proofs.Source.Clustering
import DbSchema.Proofs.Source.ColumnTypes
import DbSchema.Proofs.Source.Course
import DbSchema.Proofs.Source.Credentials
import DbSchema.Proofs.Source.CrossedKeys
import DbSchema.Proofs.Source.DeclaredTypes
import DbSchema.Proofs.Source.DialectTables
import DbSchema.Proofs.Source.Drawing
import DbSchema.Proofs.Source.ExpressionIndices
import DbSchema.Proofs.Source.Grouping
import DbSchema.Proofs.Source.InTurn
import DbSchema.Proofs.Source.Listing
import DbSchema.Proofs.Source.MisreadTypes
import DbSchema.Proofs.Source.NotNullChecks
import DbSchema.Proofs.Source.Openings
import DbSchema.Proofs.Source.PragmaNames
import DbSchema.Proofs.Source.PragmaTables
import DbSchema.Proofs.Source.Pulled
import DbSchema.Proofs.Source.QuotedNames
import DbSchema.Proofs.Source.Quoting
import DbSchema.Proofs.Source.Reading
import DbSchema.Proofs.Source.Registration
import DbSchema.Proofs.Source.Sessions
import DbSchema.Proofs.Source.SqlWords
import DbSchema.Proofs.Source.Steps
import DbSchema.Proofs.Source.ViewTables
import DbSchema.Proofs.Source.Wrapping
import DbSchema.Proofs.Text
import DbSchema.Proofs.Values
import DbSchema.Settings.Basic
import DbSchema.Settings.Profile
import DbSchema.Settings.Reference
import DbSchema.Settings.Sections
import DbSchema.Source.Catalog
import DbSchema.Source.Clustering
import DbSchema.Source.Connection
import DbSchema.Source.Dsn
import DbSchema.Source.Error
import DbSchema.Source.Grouping
import DbSchema.Source.Pragmas
import DbSchema.Source.Pull
import DbSchema.Source.Reader
import DbSchema.Source.Row
import DbSchema.Source.StandardViews
import DbSchema.Source.TypeText
import DbSchema.Source.Vendor
import DbSchema.Source.Workspace
import DbSchema.Text.Blank
import DbSchema.Text.CaseMap
import DbSchema.Text.Digit
import DbSchema.Text.Json
import DbSchema.Text.Letters
import DbSchema.Text.Percent
import DbSchema.Text.Printable
import DbSchema.Text.Quoted
import DbSchema.Value.Basic
import DbSchema.Value.Display
import DbSchema.Value.Integer
import DbSchema.Value.Items
import DbSchema.Value.Order
import DbSchema.Yaml.Build
import DbSchema.Yaml.Character
import DbSchema.Yaml.Content
import DbSchema.Yaml.Cursor
import DbSchema.Yaml.Failure
import DbSchema.Yaml.Form
import DbSchema.Yaml.Lexer
import DbSchema.Yaml.Node
import DbSchema.Yaml.Print
import DbSchema.Yaml.Scalar
import DbSchema.Yaml.Sheet
import DbSchema.Yaml.Tag
import DbSchema.Yaml.Token
