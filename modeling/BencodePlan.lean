import BencodePlan.Types.Display
import BencodePlan.Types.Parser
import BencodePlan.Text.Width
import BencodePlan.Text.Palette
import BencodePlan.Wire
import BencodePlan.Diagnostic.Render
import BencodePlan.Member.Tag
import BencodePlan.Json.Literal
import BencodePlan.Schema.Raw
import BencodePlan.Schema.Lower
import BencodePlan.Plan.Fold
import BencodePlan.Plan.Listing
import BencodePlan.Shape.OfType
import BencodePlan.Run.Machine
import BencodePlan.Generate
import BencodePlan.Source.File
import BencodePlan.CommandLine.Program
import BencodePlan.Main
import BencodePlan.Proofs.Reports
import BencodePlan.Proofs.Text.Decimal
import BencodePlan.Proofs.Text.Span
import BencodePlan.Proofs.Text.Escape
import BencodePlan.Proofs.Text.Literals
import BencodePlan.Proofs.Text.Pieces
import BencodePlan.Proofs.Wire.Item
import BencodePlan.Proofs.Types.Chains
import BencodePlan.Proofs.Types.Sound
import BencodePlan.Proofs.Types.Expansion
import BencodePlan.Proofs.Schema.Lowering
import BencodePlan.Proofs.Member.Collected
import BencodePlan.Proofs.Member.Tag
import BencodePlan.Proofs.Member.Reports
import BencodePlan.Proofs.Shape.Walk
import BencodePlan.Proofs.Shape.Result
import BencodePlan.Proofs.Shape.Shapes
import BencodePlan.Proofs.Shape.Circles
import BencodePlan.Proofs.Shape.Reports
import BencodePlan.Proofs.Shape.Rejection
import BencodePlan.Proofs.Encoding.Basic
import BencodePlan.Proofs.Run.Fold
import BencodePlan.Proofs.Run.Loops
import BencodePlan.Proofs.Encoding.Plan
import BencodePlan.Proofs.Encoding.OfType
import BencodePlan.Proofs.Encoding.WellTyped
import BencodePlan.Proofs.Encoding.Clashes
import BencodePlan.Proofs.Encoding.Content
import BencodePlan.Proofs.Encoding.Decoding
import BencodePlan.Proofs.Encoding.Order
import BencodePlan.Proofs.Run.Room
import BencodePlan.Proofs.Run.Scopes
import BencodePlan.Proofs.Shape.Scopes
import BencodePlan.Proofs.Types.Reading
import BencodePlan.Proofs.Types.Faults
import BencodePlan.Proofs.Diagnostic.Places
import BencodePlan.Proofs.Diagnostic.Collection
import BencodePlan.Proofs.Types.Places
import BencodePlan.Proofs.Schema.Reports
import BencodePlan.Proofs.Types.Meaning
import BencodePlan.Proofs.Types.Operations
import BencodePlan.Proofs.Schema.Acceptance
import BencodePlan.Proofs.Schema.Validity
import BencodePlan.Proofs.Schema.Building
import BencodePlan.Proofs.Schema.AliasCycles
import BencodePlan.Proofs.Member.Flattening
import BencodePlan.Proofs.Schema.Display
import BencodePlan.Proofs.Source.Agreement
import BencodePlan.Proofs.Pairs
import BencodePlan.Proofs.Run.Parallel
import BencodePlan.Proofs.Run.Rearranged
import BencodePlan.Proofs.Run.Rerouted
import BencodePlan.Proofs.Shape.Rebased
import BencodePlan.Proofs.Shape.Unique
import BencodePlan.Proofs.Member.Embedding
import BencodePlan.Proofs.Types.Likeness
import BencodePlan.Proofs.Types.Renumbering
import BencodePlan.Proofs.Shape.Likeness
import BencodePlan.Proofs.Shape.Renumbering
import BencodePlan.Proofs.Member.Shuffled
import BencodePlan.Proofs.Schema.Permuted
import BencodePlan.Proofs.Schema.MemberOrder
import BencodePlan.Proofs.Generate.Selection
import BencodePlan.Proofs.Generate.Reports
import BencodePlan.Proofs.Generate.Places
import BencodePlan.Proofs.Generate.Isolation
import BencodePlan.Proofs.Generate.Requests
import BencodePlan.Proofs.Generate.Tags
import BencodePlan.Proofs.Generate.Reordered
import BencodePlan.Proofs.Plan.NormalForm
import BencodePlan.Proofs.Plan.Spelling
import BencodePlan.Proofs.Plan.Listing
import BencodePlan.Proofs.Run.Buffer
import BencodePlan.Proofs.Files.Tree
import BencodePlan.Proofs.Source.Mark
import BencodePlan.Proofs.Source.Expressions
import BencodePlan.Proofs.Source.Lines
import BencodePlan.Proofs.Source.Reading
import BencodePlan.Proofs.Source.Comments
import BencodePlan.Proofs.Source.Contents
import BencodePlan.Proofs.Source.Calls
import BencodePlan.Proofs.Source.Imports
import BencodePlan.Proofs.Generate.Names
import BencodePlan.Proofs.CommandLine.Scene
import BencodePlan.Proofs.CommandLine.Effects
import BencodePlan.Proofs.CommandLine.Force
import BencodePlan.Proofs.CommandLine.Again
