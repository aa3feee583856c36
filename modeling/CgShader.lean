import CgShader.Bracket
import CgShader.CommandLine.Arguments
import CgShader.CommandLine.Log
import CgShader.CommandLine.Report
import CgShader.Config.Basic
import CgShader.Config.Json
import CgShader.Conversion
import CgShader.Cursor
import CgShader.FileTree
import CgShader.Json.Fault
import CgShader.Json.Number
import CgShader.Json.Skip
import CgShader.Json.String
import CgShader.Main
import CgShader.Path
import CgShader.Program.Basic
import CgShader.Program.Body
import CgShader.Program.Parameter
import CgShader.Proofs.AddedSpace
import CgShader.Proofs.BalancedBlocks
import CgShader.Proofs.BatchOrder
import CgShader.Proofs.BlockSearch
import CgShader.Proofs.BodyEdits
import CgShader.Proofs.BodyStructure
import CgShader.Proofs.CanonicalText
import CgShader.Proofs.ColorReturns
import CgShader.Proofs.CommentGaps
import CgShader.Proofs.CommentGrammar
import CgShader.Proofs.ConversionFrames
import CgShader.Proofs.CursorMotion
import CgShader.Proofs.CursorRuns
import CgShader.Proofs.EarlyRenaming
import CgShader.Proofs.ErrorPlaces
import CgShader.Proofs.ItemGrammar
import CgShader.Proofs.ItemLocality
import CgShader.Proofs.ItemSoundness
import CgShader.Proofs.LayoutIndependence
import CgShader.Proofs.LineEnds
import CgShader.Proofs.LiteralEnds
import CgShader.Proofs.LoneReturns
import CgShader.Proofs.OutputNames
import CgShader.Proofs.OutputsBeside
import CgShader.Proofs.ParameterBindings
import CgShader.Proofs.PathPieces
import CgShader.Proofs.ProductOperands
import CgShader.Proofs.ProductsLeft
import CgShader.Proofs.ProgramReading
import CgShader.Proofs.RepeatedStripping
import CgShader.Proofs.SharedOutputs
import CgShader.Proofs.SourcePreparation
import CgShader.Proofs.SpacingRuns
import CgShader.Proofs.StatementLines
import CgShader.Proofs.TokenReading
import CgShader.Proofs.TokenSequences
import CgShader.Proofs.WhiteSpace
import CgShader.Proofs.WholeIdentifiers
import CgShader.Shader.Basic
import CgShader.Shader.Error
import CgShader.Shader.Item
import CgShader.Source.Comment
import CgShader.Source.Prepared
import CgShader.Source.Spacing
import CgShader.Source.Spelling
import CgShader.Stage
import CgShader.Text.Basic
import CgShader.Text.Edit
import CgShader.Text.Quoted
import CgShader.Text.Terminal
import CgShader.Text.White
import CgShader.Text.Word
import CgShader.Token
