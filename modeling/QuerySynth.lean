import QuerySynth.Command.Arguments
import QuerySynth.Command.Files
import QuerySynth.Command.Flags
import QuerySynth.Command.Invocation
import QuerySynth.Command.Run
import QuerySynth.Config.Basic
import QuerySynth.Config.File
import QuerySynth.Config.Preset
import QuerySynth.Config.Report
import QuerySynth.Config.Weights
import QuerySynth.Decimal.Binary64
import QuerySynth.Decimal.Layout
import QuerySynth.Decimal.Number
import QuerySynth.Declaration
import QuerySynth.Generate.Attribute
import QuerySynth.Generate.Batch
import QuerySynth.Generate.Chain
import QuerySynth.Generate.Clause
import QuerySynth.Generate.Query
import QuerySynth.Generate.Scope
import QuerySynth.Generate.Select
import QuerySynth.Grammar.Attribute
import QuerySynth.Grammar.Clause
import QuerySynth.Grammar.Kind
import QuerySynth.Grammar.Query
import QuerySynth.Grammar.Select
import QuerySynth.Grammar.Synonym
import QuerySynth.Json.Value
import QuerySynth.Main
import QuerySynth.Pool
import QuerySynth.Proofs.Clause.DeadEnd
import QuerySynth.Proofs.Clause.Equation
import QuerySynth.Proofs.Clause.Operands
import QuerySynth.Proofs.Clause.Pattern
import QuerySynth.Proofs.Command.Blocks
import QuerySynth.Proofs.Command.FileTree
import QuerySynth.Proofs.Command.Layers
import QuerySynth.Proofs.Command.Opening
import QuerySynth.Proofs.Command.Output
import QuerySynth.Proofs.Command.Preparation
import QuerySynth.Proofs.Command.Run
import QuerySynth.Proofs.Config.Check
import QuerySynth.Proofs.Config.File
import QuerySynth.Proofs.Config.Merge
import QuerySynth.Proofs.Config.Preset
import QuerySynth.Proofs.Config.Sums
import QuerySynth.Proofs.Declaration
import QuerySynth.Proofs.Declaration.Distinct
import QuerySynth.Proofs.Generate.Attribute
import QuerySynth.Proofs.Generate.Chain
import QuerySynth.Proofs.Generate.Clause
import QuerySynth.Proofs.Generate.Equation
import QuerySynth.Proofs.Generate.Query
import QuerySynth.Proofs.Generate.Renaming
import QuerySynth.Proofs.Generate.Select
import QuerySynth.Proofs.Generate.Support
import QuerySynth.Proofs.Pool
import QuerySynth.Proofs.Pool.Capacity
import QuerySynth.Proofs.Pool.Distinct
import QuerySynth.Proofs.Pool.Filling
import QuerySynth.Proofs.Query.Closure
import QuerySynth.Proofs.Query.Decoding
import QuerySynth.Proofs.Query.Failure
import QuerySynth.Proofs.Query.Inert
import QuerySynth.Proofs.Query.Layout
import QuerySynth.Proofs.Query.Preset
import QuerySynth.Proofs.Query.Production
import QuerySynth.Proofs.Query.Renaming
import QuerySynth.Proofs.Query.Shape
import QuerySynth.Proofs.Query.Success
import QuerySynth.Proofs.Random.Choice
import QuerySynth.Proofs.Random.Completion
import QuerySynth.Proofs.Random.Mask
import QuerySynth.Proofs.Random.Outcome
import QuerySynth.Proofs.Random.Range
import QuerySynth.Proofs.Random.Reach
import QuerySynth.Proofs.Random.Retry
import QuerySynth.Proofs.Random.Run
import QuerySynth.Proofs.Random.Share
import QuerySynth.Proofs.Random.Subset
import QuerySynth.Proofs.Random.Zone
import QuerySynth.Proofs.Reading.Clause
import QuerySynth.Proofs.Reading.Declaration
import QuerySynth.Proofs.Reading.Line
import QuerySynth.Proofs.Reading.NormalForm
import QuerySynth.Proofs.Reading.RoundTrip
import QuerySynth.Proofs.Reading.Unambiguous
import QuerySynth.Proofs.Reading.Word
import QuerySynth.Proofs.Select.Guard
import QuerySynth.Proofs.Select.Support
import QuerySynth.Proofs.Text.Entries
import QuerySynth.Proofs.Text.Lines
import QuerySynth.Random.Choice
import QuerySynth.Random.Keystream
import QuerySynth.Random.Range
import QuerySynth.Random.Script
import QuerySynth.Random.Source
import QuerySynth.Random.Subset
import QuerySynth.Text.Blank
import QuerySynth.Text.Pieces
import QuerySynth.Toml.Document
import QuerySynth.Toml.Node
import QuerySynth.Toml.Scalar
