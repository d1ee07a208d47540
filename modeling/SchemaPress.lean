import SchemaPress.Command.Arguments
import SchemaPress.Command.FileStore
import SchemaPress.Command.FileTree
import SchemaPress.Command.Path
import SchemaPress.Command.Run
import SchemaPress.Config.Basic
import SchemaPress.Config.Decode
import SchemaPress.Config.Encode
import SchemaPress.Decimal.Power
import SchemaPress.Decimal.Range
import SchemaPress.Decimal.Shortest
import SchemaPress.Format
import SchemaPress.Generator
import SchemaPress.Json.Basic
import SchemaPress.Json.Node
import SchemaPress.Json.Number
import SchemaPress.Json.ReadError
import SchemaPress.Json.Reader
import SchemaPress.Main
import SchemaPress.PrimitiveTable
import SchemaPress.Proofs.Command.AllOrNothing
import SchemaPress.Proofs.Command.Arguments
import SchemaPress.Proofs.Command.Confinement
import SchemaPress.Proofs.Command.Delivery
import SchemaPress.Proofs.Command.FileTree
import SchemaPress.Proofs.Command.Path
import SchemaPress.Proofs.Command.Repetition
import SchemaPress.Proofs.Command.Writable
import SchemaPress.Proofs.Config.RoundTrip
import SchemaPress.Proofs.Generator.FieldNames
import SchemaPress.Proofs.Generator.Passes
import SchemaPress.Proofs.Generator.RawValues
import SchemaPress.Proofs.Generator.Reachability
import SchemaPress.Proofs.Json.Grammar
import SchemaPress.Proofs.Json.Order
import SchemaPress.Proofs.Json.Plain
import SchemaPress.Proofs.Json.Reader
import SchemaPress.Proofs.Json.Scan
import SchemaPress.Proofs.Json.Setting
import SchemaPress.Proofs.Json.Thorough
import SchemaPress.Proofs.Json.Token
import SchemaPress.Proofs.Schema.Accepted
import SchemaPress.Proofs.Schema.AnyOrder
import SchemaPress.Proofs.Schema.CamelCase
import SchemaPress.Proofs.Schema.Comment
import SchemaPress.Proofs.Schema.DocLines
import SchemaPress.Proofs.Schema.Map
import SchemaPress.Proofs.Schema.Names
import SchemaPress.Proofs.Schema.Places
import SchemaPress.Proofs.Schema.Reshaped
import SchemaPress.Proofs.Schema.RoundTrip
import SchemaPress.Proofs.Schema.Soundness
import SchemaPress.Proofs.Schema.Variation
import SchemaPress.Proofs.Swift.Faithful
import SchemaPress.Proofs.Swift.Line
import SchemaPress.Proofs.Swift.Reader
import SchemaPress.Proofs.Target.Annotation
import SchemaPress.Proofs.Target.BlockComment
import SchemaPress.Proofs.Target.Collision
import SchemaPress.Proofs.Target.Dangling
import SchemaPress.Proofs.Target.Description
import SchemaPress.Proofs.Target.Emission
import SchemaPress.Proofs.Target.FieldLine
import SchemaPress.Proofs.Target.Fragment
import SchemaPress.Proofs.Target.Identifier
import SchemaPress.Proofs.Target.PassThrough
import SchemaPress.Proofs.Target.RawEnum
import SchemaPress.Proofs.Target.RecordFields
import SchemaPress.Proofs.Target.RecordObject
import SchemaPress.Proofs.Target.SchemaObject
import SchemaPress.Proofs.Target.Silence
import SchemaPress.Proofs.Target.Strictness
import SchemaPress.Proofs.Target.TypeGrammar
import SchemaPress.Proofs.Target.TypeObject
import SchemaPress.Proofs.Target.UnionLayout
import SchemaPress.Proofs.Target.WireName
import SchemaPress.Proofs.Target.Written
import SchemaPress.Proofs.Text.Casing
import SchemaPress.Proofs.Text.CodeLines
import SchemaPress.Proofs.Text.Contents
import SchemaPress.Proofs.Text.Digit
import SchemaPress.Proofs.Text.Lines
import SchemaPress.Proofs.Text.Literal
import SchemaPress.Proofs.Yaml.Ending
import SchemaPress.Proofs.Yaml.Reader
import SchemaPress.Proofs.Yaml.Scalar
import SchemaPress.Proofs.Yaml.Shift
import SchemaPress.Representation
import SchemaPress.Schema.Basic
import SchemaPress.Schema.Check
import SchemaPress.Schema.Decode
import SchemaPress.Schema.Diagnostic
import SchemaPress.Schema.Doc
import SchemaPress.Schema.Encode
import SchemaPress.Schema.Pass
import SchemaPress.Target.Backend
import SchemaPress.Target.Fragment
import SchemaPress.Target.Lexicon
import SchemaPress.Target.Name
import SchemaPress.Target.OpenApi
import SchemaPress.Target.Rust
import SchemaPress.Target.Swift
import SchemaPress.Target.TypeScript
import SchemaPress.Text.Blank
import SchemaPress.Text.Casing
import SchemaPress.Text.Digit
import SchemaPress.Text.Escape
import SchemaPress.Text.Lines
import SchemaPress.Text.Literal
import SchemaPress.Text.Quoted
import SchemaPress.Text.Shapeless
import SchemaPress.Text.Split
import SchemaPress.Toml.Basic
import SchemaPress.Toml.Document
import SchemaPress.Toml.Scalar
import SchemaPress.Yaml.Basic
import SchemaPress.Yaml.Scalar
