import CardSearch.Mana.Payment
import CardSearch.Card.Json
import CardSearch.Category
import CardSearch.Json.Read
import CardSearch.Json.Write
import CardSearch.Date
import CardSearch.Number.Layout
import CardSearch.Text.Blank
import CardSearch.Text.Case
import CardSearch.Text.Distance
import CardSearch.Text.Piece
import CardSearch.Text.Quoted
import CardSearch.Query.Operator
import CardSearch.Query.Field
import CardSearch.Query.Value
import CardSearch.Query.Describe
import CardSearch.Query.Error
import CardSearch.Query.Token
import CardSearch.Query.Tree
import CardSearch.Query.Grammar
import CardSearch.Query.Comparison
import CardSearch.Query.Meaning
import CardSearch.Query.Filter
import CardSearch.Storage.Path
import CardSearch.Storage.Directory
import CardSearch.Catalog
import CardSearch.Report.Style
import CardSearch.Report.Cell
import CardSearch.Report.Page
import CardSearch.Report.Outline
import CardSearch.Report.FieldTable
import CardSearch.Text.Remainder
import CardSearch.Toml.Basic
import CardSearch.Toml.Scalar
import CardSearch.Toml.Quoted
import CardSearch.Toml.Line
import CardSearch.Toml.Section
import CardSearch.Toml.Document
import CardSearch.CommandLine.Environment
import CardSearch.CommandLine.Settings
import CardSearch.CommandLine.Arguments
import CardSearch.CommandLine.Run
import CardSearch.Main
import CardSearch.Proofs.Query.Parsing
import CardSearch.Proofs.Query.Lexing
import CardSearch.Proofs.Query.Lossless
import CardSearch.Proofs.Query.WellFormed
import CardSearch.Proofs.Query.RoundTrip
import CardSearch.Proofs.Query.Combining
import CardSearch.Proofs.Query.Casting
import CardSearch.Proofs.Mana.Fusing
import CardSearch.Proofs.Query.Showing
import CardSearch.Proofs.Query.Leaves
import CardSearch.Proofs.Query.Complement
import CardSearch.Proofs.Json.Numeral
import CardSearch.Proofs.Json.RoundTrip
import CardSearch.Proofs.Card.Shape
import CardSearch.Proofs.Catalog.Loading
import CardSearch.Proofs.Storage.Folders
import CardSearch.Proofs.Catalog.Saving
import CardSearch.Proofs.Card.RoundTrip
import CardSearch.Proofs.Catalog.History
import CardSearch.Proofs.Date
import CardSearch.Proofs.Distinct
import CardSearch.Proofs.Mana.Spelling
import CardSearch.Proofs.Mana.Unlimited
import CardSearch.Proofs.Mana.Amounts
import CardSearch.Proofs.Mana.Conservation
import CardSearch.Proofs.Query.Dependence
import CardSearch.Proofs.Query.Pairing
import CardSearch.Proofs.Query.Sets
import CardSearch.Proofs.Query.Appearance
import CardSearch.Proofs.Query.Blame
import CardSearch.Proofs.Mana.Items
import CardSearch.Proofs.Mana.Pieces
import CardSearch.Proofs.Query.Single
import CardSearch.Proofs.Text.Ascii
import CardSearch.Proofs.Mana.Printed
import CardSearch.Proofs.Query.Printed
import CardSearch.Proofs.Query.SelfReference
import CardSearch.Proofs.Query.Finding
import CardSearch.Proofs.Report.Column
import CardSearch.Proofs.Text.Marking
import CardSearch.Proofs.Text.Sigma
import CardSearch.Proofs.Report.Listing
import CardSearch.Proofs.Number.Rounding
import CardSearch.Proofs.Number.Finite
import CardSearch.Proofs.Query.Counters
import CardSearch.Proofs.Json.Range
import CardSearch.Proofs.Card.Numbers
import CardSearch.Proofs.Catalog.Reals
import CardSearch.Proofs.Mana.Case
import CardSearch.Proofs.Query.Case
import CardSearch.Proofs.Query.Suggesting
import CardSearch.Proofs.Query.ColorWords
import CardSearch.Proofs.Query.Origin
import CardSearch.Proofs.Report.Truncation
import CardSearch.Proofs.Report.Escapes
import CardSearch.Proofs.Report.Unescaped
import CardSearch.Proofs.Report.Colored
import CardSearch.Proofs.Text.Edits
import CardSearch.Proofs.Text.Trim
