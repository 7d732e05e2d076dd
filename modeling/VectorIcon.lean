import VectorIcon.Main
import VectorIcon.FileSystem.Tree
import VectorIcon.Proofs.Number.Munch
import VectorIcon.Proofs.Number.Order
import VectorIcon.Proofs.Path.Grammar
import VectorIcon.Proofs.Path.Parsing
import VectorIcon.Proofs.Svg.DocumentOrder
import VectorIcon.Proofs.Template.Selection
import VectorIcon.Proofs.Number.Value
import VectorIcon.Proofs.Kotlin.Number
import VectorIcon.Proofs.Kotlin.Arguments
import VectorIcon.Proofs.Kotlin.Lines
import VectorIcon.Proofs.Kotlin.Color
import VectorIcon.Proofs.Kotlin.Alike
import VectorIcon.Proofs.Kotlin.Fields
import VectorIcon.Proofs.Kotlin.Paint
import VectorIcon.Proofs.Kotlin.Command
import VectorIcon.Proofs.Kotlin.Block
import VectorIcon.Proofs.Kotlin.Outline
import VectorIcon.Proofs.Kotlin.Placement
import VectorIcon.Proofs.Kotlin.Faithful
import VectorIcon.Proofs.Kotlin.Layout
import VectorIcon.Proofs.Kotlin.Mention
import VectorIcon.Proofs.Kotlin.Imports
import VectorIcon.Proofs.Kotlin.Nesting
import VectorIcon.Proofs.Kotlin.Indentation
import VectorIcon.Proofs.Kotlin.Overriding
import VectorIcon.Proofs.Kotlin.ClipLayout
import VectorIcon.Proofs.Svg.Size
import VectorIcon.Proofs.Svg.Faultless
import VectorIcon.Proofs.Svg.Leniency
import VectorIcon.Proofs.Path.Drawing
import VectorIcon.Proofs.Path.Locality
import VectorIcon.Proofs.Path.FirstFault
import VectorIcon.Proofs.Path.Concatenation
import VectorIcon.Proofs.Svg.ClipDrawing
import VectorIcon.Proofs.Svg.Rearrangement
import VectorIcon.Proofs.Svg.WellFormed
import VectorIcon.Proofs.Affine.FunctionList
import VectorIcon.Proofs.Affine.Decomposition
import VectorIcon.Proofs.FileSystem.Path
import VectorIcon.Proofs.FileSystem.Tree
import VectorIcon.Proofs.FileSystem.Saving
import VectorIcon.Proofs.Name.Words
import VectorIcon.Proofs.Name.Category
import VectorIcon.Proofs.Name.Division
import VectorIcon.Proofs.Name.Source
import VectorIcon.Proofs.Cli.Arrangement
import VectorIcon.Proofs.Cli.Target
import VectorIcon.Proofs.Cli.Record
import VectorIcon.Proofs.Cli.Run
import VectorIcon.Proofs.Cli.Mirroring
import VectorIcon.Proofs.Cli.Reading
import VectorIcon.Proofs.Cli.Progress
import VectorIcon.Proofs.Cli.Foretelling
import VectorIcon.Proofs.Cli.Arguments
import VectorIcon.Proofs.Cli.Overwriting
import VectorIcon.Proofs.Cli.Confinement
import VectorIcon.Proofs.Cli.DryRun
import VectorIcon.Proofs.Kotlin.CommandText
import VectorIcon.Proofs.Kotlin.Parameters
import VectorIcon.Proofs.Template.Declared
import VectorIcon.Proofs.Number.Decoding
import VectorIcon.Proofs.Number.Shortest
import VectorIcon.Proofs.Number.Rounding
import VectorIcon.Proofs.Kotlin.Literal
import VectorIcon.Proofs.Kotlin.Printed
import VectorIcon.Proofs.Svg.Likeness
import VectorIcon.Proofs.Svg.Shadowing
import VectorIcon.Proofs.Svg.GradientChain
import VectorIcon.Proofs.Svg.PaddedId
import VectorIcon.Proofs.Svg.Hiding
import VectorIcon.Proofs.Name.Snake
import VectorIcon.Proofs.Name.Capitals
import VectorIcon.Proofs.Name.Whole
import VectorIcon.Proofs.Template.Naming
import VectorIcon.Proofs.Text.Blank
import VectorIcon.Proofs.Text.Cutting
import VectorIcon.Proofs.Color.Argb
import VectorIcon.Proofs.Color.Hex
import VectorIcon.Proofs.Color.Notation
import VectorIcon.Proofs.Number.Whole
import VectorIcon.Proofs.Color.Rgb
import VectorIcon.Proofs.Kotlin.Escaping
import VectorIcon.Proofs.Kotlin.ImportGroups
import VectorIcon.Proofs.Shape.Outline
import VectorIcon.Proofs.Svg.Unsupported
import VectorIcon.Proofs.Number.Exact
import VectorIcon.Proofs.Number.Addition
import VectorIcon.Proofs.Number.Hypotenuse
import VectorIcon.Proofs.Path.Finite
import VectorIcon.Proofs.Shape.Finite
import VectorIcon.Proofs.Affine.Finite
import VectorIcon.Proofs.Svg.Finite
import VectorIcon.Proofs.Svg.Infinity
import VectorIcon.Proofs.Template.Embedding
import VectorIcon.Path.Cursor
import VectorIcon.Proofs.Path.Bytes
import VectorIcon.Proofs.Path.Cursor
import VectorIcon.Proofs.Path.Safety
