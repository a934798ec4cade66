import PageTree.Compile.Attached
import PageTree.Compile.Catalog
import PageTree.Compile.Native
import PageTree.Compile.Path
import PageTree.Compile.Selector
import PageTree.Compile.Sort
import PageTree.Compile.Window
import PageTree.Data.Datum
import PageTree.Data.Dictionary
import PageTree.Data.Json
import PageTree.Date.Calendar
import PageTree.Date.Reading
import PageTree.Error
import PageTree.Field.Kind
import PageTree.Finder
import PageTree.Main
import PageTree.Number.Binary64
import PageTree.Number.Extended
import PageTree.Number.Int64
import PageTree.Number.Shortest
import PageTree.Query.Basic
import PageTree.Query.Limits
import PageTree.Schema.Basic
import PageTree.Schema.Document
import PageTree.Schema.Validation
import PageTree.Selector.Operator
import PageTree.Selector.Status
import PageTree.Selector.Term
import PageTree.Site.Command
import PageTree.Site.Files
import PageTree.Site.Invocation
import PageTree.Site.Listing
import PageTree.Site.Settings
import PageTree.Site.StoreFile
import PageTree.Site.StoreName
import PageTree.Sql.Arithmetic
import PageTree.Sql.Condition
import PageTree.Sql.Expression
import PageTree.Sql.Function
import PageTree.Sql.Grammar
import PageTree.Sql.Like
import PageTree.Sql.Literal
import PageTree.Sql.Name
import PageTree.Sql.Output
import PageTree.Sql.Phrase
import PageTree.Sql.RowOrder
import PageTree.Sql.RunningSum
import PageTree.Sql.Scope
import PageTree.Sql.Statement
import PageTree.Sql.Test
import PageTree.Sql.Token
import PageTree.Sql.Truth
import PageTree.Sql.Value
import PageTree.Store.Archive
import PageTree.Store.Basic
import PageTree.Store.Definition
import PageTree.Store.Link
import PageTree.Store.Rows
import PageTree.Store.Seed
import PageTree.Store.SeedDocument
import PageTree.Store.Selection
import PageTree.Store.Table
import PageTree.Text.Alphanumeric
import PageTree.Text.Blank
import PageTree.Text.Code
import PageTree.Text.CodePoints
import PageTree.Text.Combining
import PageTree.Text.Percent
import PageTree.Text.Printable
import PageTree.Text.Quotes
import PageTree.Toml.Document
import PageTree.Toml.Scalar
import PageTree.Yaml.Cursor
import PageTree.Yaml.Node
import PageTree.Yaml.Record
import PageTree.Yaml.Scalar
import PageTree.Yaml.Token
import PageTree.Proofs.Sql.BooleanText
import PageTree.Proofs.Sql.ConditionText
import PageTree.Proofs.Sql.Quoting
import PageTree.Proofs.Query.Naming
import PageTree.Proofs.Compile.Naming
import PageTree.Proofs.Finder.Containment
import PageTree.Proofs.Store.Execution
import PageTree.Proofs.Finder.Visibility
import PageTree.Proofs.Store.Reachable
import PageTree.Proofs.Store.Independence
import PageTree.Proofs.Store.Installation
import PageTree.Proofs.Store.Isolation
import PageTree.Proofs.Compile.Shape
import PageTree.Proofs.Store.Satisfaction
import PageTree.Proofs.Store.Groups
import PageTree.Proofs.Finder.Meaning
import PageTree.Proofs.Text.Pieces
import PageTree.Proofs.Selector.Writing
import PageTree.Proofs.Compile.Words
import PageTree.Proofs.Compile.Windowless
import PageTree.Proofs.Compile.Numbering
import PageTree.Proofs.Query.Comment
import PageTree.Proofs.Store.Window
import PageTree.Proofs.Store.Evaluation
import PageTree.Proofs.Finder.Window
import PageTree.Proofs.Finder.Total
import PageTree.Proofs.Store.Paths
import PageTree.Proofs.Store.Descent
import PageTree.Proofs.Store.Tree
import PageTree.Proofs.Store.Ancestry
import PageTree.Proofs.Query.Limits
import PageTree.Proofs.Compile.Path
import PageTree.Proofs.Finder.History
import PageTree.Proofs.Store.Transaction
import PageTree.Proofs.Store.Answers
import PageTree.Proofs.Store.Climbing
import PageTree.Proofs.Finder.InnerJoins
import PageTree.Proofs.Finder.Ancestors
import PageTree.Proofs.Finder.Paths
import PageTree.Proofs.Finder.Exclusion
import PageTree.Proofs.Store.Tables
import PageTree.Proofs.Store.Values
import PageTree.Proofs.Store.Templates
import PageTree.Proofs.Store.TextLimit
import PageTree.Proofs.Store.Imports
import PageTree.Proofs.Store.Seeding
import PageTree.Proofs.Query.CommentEnds
import PageTree.Proofs.Finder.Single
import PageTree.Proofs.Sql.Knowledge
import PageTree.Proofs.Compile.Names
import PageTree.Proofs.Store.Alternatives
import PageTree.Proofs.Compile.SortSources
import PageTree.Proofs.Compile.FieldNames
import PageTree.Proofs.Compile.Frame
import PageTree.Proofs.Store.Frames
import PageTree.Proofs.Finder.Frames
import PageTree.Proofs.Finder.OneTerm
import PageTree.Proofs.Finder.Union
import PageTree.Proofs.Finder.Complement
import PageTree.Proofs.Finder.Answers
import PageTree.Proofs.Finder.Values
import PageTree.Proofs.Finder.Repetition
import PageTree.Proofs.Store.Orders
import PageTree.Proofs.Store.Lookups
import PageTree.Proofs.Compile.Sorting
import PageTree.Proofs.Store.Sorting
import PageTree.Proofs.Store.SortedRows
import PageTree.Proofs.Finder.Sorting
import PageTree.Proofs.Text.Bytes
import PageTree.Proofs.Sql.Patterns
import PageTree.Proofs.Sql.TestReading
import PageTree.Proofs.Field.TextMatching
import PageTree.Proofs.Store.Heights
import PageTree.Proofs.Finder.PathTerms
import PageTree.Proofs.Finder.TreeTerms
import PageTree.Proofs.Number.Exactness
import PageTree.Proofs.Number.Lengths
import PageTree.Proofs.Sql.Occurrences
import PageTree.Proofs.Compile.Scores
import PageTree.Proofs.Store.Scores
import PageTree.Proofs.Finder.Scores
import PageTree.Proofs.Date.Calendar
import PageTree.Proofs.Date.Digits
import PageTree.Proofs.Date.Readings
import PageTree.Proofs.Date.RoundTrip
import PageTree.Proofs.Date.Order
import PageTree.Proofs.Date.Overflow
import PageTree.Proofs.Finder.PageNames
import PageTree.Proofs.Query.MergedJoins
import PageTree.Proofs.Selector.Grammar
import PageTree.Proofs.Store.SeededTexts
import PageTree.Proofs.Site.Footer
import PageTree.Proofs.Text.Splitting
