import SchemaTypes.Assembly
import SchemaTypes.Catalog
import SchemaTypes.Codec.Database
import SchemaTypes.Codec.Expression
import SchemaTypes.Codec.Options
import SchemaTypes.Codec.Statement
import SchemaTypes.ColumnType
import SchemaTypes.CommandLine.Failure
import SchemaTypes.CommandLine.Help
import SchemaTypes.CommandLine.Request
import SchemaTypes.CommandLine.Run
import SchemaTypes.Config
import SchemaTypes.Database
import SchemaTypes.Decimal.Binary64
import SchemaTypes.Decimal.Layout
import SchemaTypes.Decimal.Power
import SchemaTypes.Decimal.Shortest
import SchemaTypes.Definitions
import SchemaTypes.Dialect
import SchemaTypes.Expression
import SchemaTypes.Files.Fault
import SchemaTypes.Files.Path
import SchemaTypes.Files.System
import SchemaTypes.Files.Tree
import SchemaTypes.Generation
import SchemaTypes.Json.Basic
import SchemaTypes.Json.Outline
import SchemaTypes.Json.ReadError
import SchemaTypes.Json.Record
import SchemaTypes.Json.Source
import SchemaTypes.Json.Token
import SchemaTypes.Json.Variant
import SchemaTypes.Json.Writer
import SchemaTypes.Kind
import SchemaTypes.Main
import SchemaTypes.NameMap
import SchemaTypes.Proofs.Agreement
import SchemaTypes.Proofs.Assembled
import SchemaTypes.Proofs.CanonicalOrder
import SchemaTypes.Proofs.Children
import SchemaTypes.Proofs.Clash
import SchemaTypes.Proofs.ConstructionOrder
import SchemaTypes.Proofs.Declared
import SchemaTypes.Proofs.Defects
import SchemaTypes.Proofs.FirstError
import SchemaTypes.Proofs.GeneratedModules
import SchemaTypes.Proofs.InputOrder
import SchemaTypes.Proofs.Lists
import SchemaTypes.Proofs.PascalCase
import SchemaTypes.Proofs.Reachability
import SchemaTypes.Proofs.RoundTrip.Database
import SchemaTypes.Proofs.RoundTrip.Expression
import SchemaTypes.Proofs.RoundTrip.Records
import SchemaTypes.Proofs.RoundTrip.Statement
import SchemaTypes.Proofs.RoundTrip.Text
import SchemaTypes.Proofs.RoundTrip.Tokens
import SchemaTypes.Proofs.TableOrder
import SchemaTypes.Proofs.WellFormed
import SchemaTypes.Reach
import SchemaTypes.Render.Error
import SchemaTypes.Render.Module
import SchemaTypes.Render.Parts
import SchemaTypes.Render.StaticType
import SchemaTypes.Render.UnionOrder
import SchemaTypes.Render.Validator
import SchemaTypes.ScalarName
import SchemaTypes.Statement
import SchemaTypes.Text.Ascii
import SchemaTypes.Text.Blank
import SchemaTypes.Text.Hex
import SchemaTypes.Text.Hidden
import SchemaTypes.Text.PascalCase
import SchemaTypes.Text.Quoted
import SchemaTypes.Text.Shown
import SchemaTypes.Toml.Document
import SchemaTypes.Toml.Table
import SchemaTypes.Toml.Text
import SchemaTypes.Proofs.Layout
import SchemaTypes.Proofs.Growth
import SchemaTypes.Proofs.TypeNames
import SchemaTypes.Proofs.RunTimeNames
import SchemaTypes.Proofs.DatabaseKeys
import SchemaTypes.Proofs.OneLine
import SchemaTypes.Proofs.Fragments
import SchemaTypes.Proofs.Paragraphs
import SchemaTypes.Proofs.Builders
import SchemaTypes.Proofs.FileTrees
import SchemaTypes.Proofs.Runs
import SchemaTypes.Proofs.Trimming
import SchemaTypes.Proofs.Wrappers
import SchemaTypes.Proofs.ScalarNames
import SchemaTypes.Proofs.ColumnTexts
import SchemaTypes.Proofs.Outermost
import SchemaTypes.Proofs.Grouping
import SchemaTypes.Proofs.NamePlaces
import SchemaTypes.Proofs.Indentation
import SchemaTypes.Proofs.ErrorPaths
import SchemaTypes.Proofs.Parting
import SchemaTypes.Proofs.Spelling
import SchemaTypes.Proofs.BareNames
import SchemaTypes.Proofs.TypeIdentifiers
import SchemaTypes.Proofs.StringLiterals
import SchemaTypes.Proofs.Descriptions
import SchemaTypes.Proofs.Keys
import SchemaTypes.Proofs.Walks
